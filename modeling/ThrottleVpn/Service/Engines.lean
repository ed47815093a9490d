import ThrottleVpn.Foundation.Sections
import ThrottleVpn.Service.Lifecycle

/-! At most one engine.

All instances share one native engine. From its `engine?.stop()` on, `establish` works
on it until the new engine thread is created, and `doStop` until its engine is null.
While no two tasks do so at the same time, no engine is started over a running one,
and every engine thread is joined once. A coroutine whose `Builder.establish` is refused
may come between, except while it stops an engine itself: it starts none.
-/

set_option autoImplicit false

namespace ThrottleVpn.Service

open Foundation Function

/-! ### What engine_start and engine_stop promise -/

def created (calls : List NativeCall) : List Nat :=
  calls.filterMap fun call => match call with
    | .pthreadCreate thread => some thread
    | _ => none

/-- `engine_start` begins when every engine has been stopped; `engine_stop` joins a
thread that was created and not joined before, and is done only then. -/
def WellTimed (past : List NativeCall) : NativeCall → Prop
  | .memset => ∀ thread ∈ created past, .stopDone (some thread) ∈ past
  | .pthreadJoin (some thread) => thread ∈ created past ∧ .pthreadJoin (some thread) ∉ past
  | .stopDone (some thread) => .pthreadJoin (some thread) ∈ past
  | _ => True

instance (past : List NativeCall) : (call : NativeCall) → Decidable (WellTimed past call)
  | .memset => inferInstanceAs (Decidable (∀ thread ∈ created past, _))
  | .pthreadJoin (some _) => inferInstanceAs (Decidable (_ ∧ _))
  | .stopDone (some _) => inferInstanceAs (Decidable (_ ∈ past))
  | .pthreadJoin none | .stopDone none | .newGlobalRef _ | .deleteGlobalRef _ | .initLocks | .destroyLocks
  | .epollCreate _ | .closeEpoll _ | .pthreadCreate _ => inferInstanceAs (Decidable True)

@[simp] theorem mem_created {thread : Nat} {calls : List NativeCall} :
    thread ∈ created calls ↔ .pthreadCreate thread ∈ calls := by
  unfold created
  rw [List.mem_filterMap]
  constructor
  · rintro ⟨call, among, same⟩
    cases call <;> simp_all
  · exact fun among => ⟨_, among, rfl⟩

theorem created_of_joined {calls : List NativeCall} (judged : Judged WellTimed calls) {thread : Nat}
    (joined : .pthreadJoin (some thread) ∈ calls) : .pthreadCreate thread ∈ calls := by
  obtain ⟨past, future, rfl⟩ := List.mem_iff_append.mp joined
  have before := (judged past _ future rfl).1
  exact List.mem_append_left _ (mem_created.mp before)

/-! ### The section -/

/-- Where a task stands: before each statement of `engine_stop`, with no engine, before
the first statements of `engine_start`, or in `onDestroy` past `engine = null`. -/
inductive EnginePhase where
  | out
  | check
  | clear
  | join
  | tearDown
  | down
  | launching
  | zeroed
  | booting
  | closed
  | bad
  deriving DecidableEq

def EnginePhase.pre : Stmt → EnginePhase → EnginePhase
  | .stopEngine, .down => .out
  | .returnUnlessRunning, .down => .check
  | .clearRunning, .join => .clear
  | .joinThread, .tearDown => .join
  | .tearDown, .down => .tearDown
  | .buildVpnFd, .down | .newEngine, .down | .newShaper, .down | .startEngine, .out => .down
  | .memset, .zeroed => .launching
  | .setFields _, .booting => .zeroed
  | .cacheRefs, .booting | .initLocks, .booting | .createEpoll, .booting | .watchTun, .booting
  | .createThread, .out => .booting
  | .clearEngine, .out | .clearEngine, .closed => .down
  | .clearInstance, .out => .closed
  | .begin, .out | .returnIfConnected, .out | .returnUnless _, .out | .applySavedCaps, .out
  | .registerNetCb, .out => .out
  | .stopEngine, _ | .returnUnlessRunning, _ | .clearRunning, _ | .joinThread, _ | .tearDown, _
  | .buildVpnFd, _ | .newEngine, _ | .newShaper, _ | .startEngine, _ | .memset, _ | .setFields _, _
  | .cacheRefs, _ | .initLocks, _ | .createEpoll, _ | .watchTun, _ | .createThread, _ | .clearEngine, _
  | .clearInstance, _ | .begin, _ | .returnIfConnected, _ | .returnUnless _, _ | .applySavedCaps, _
  | .registerNetCb, _ => .bad
  | _, phase => phase

def engineOutline : Outline Stmt EnginePhase := ⟨.out, EnginePhase.pre⟩

/-- No thread of an engine is left, and `engine_stop` would find none to join. -/
def Quiet (m : Memory) : Prop := ∀ thread, .pthreadCreate thread ∈ m.calls → .stopDone (some thread) ∈ m.calls

def Last (thread : Nat) (m : Memory) : Prop := m.native.thread = some thread ∧
  ∀ other, .pthreadCreate other ∈ m.calls → other = thread ∨ .stopDone (some other) ∈ m.calls

def Live (m : Memory) : Prop :=
  ∃ thread, Last thread m ∧ .pthreadCreate thread ∈ m.calls ∧ .pthreadJoin (some thread) ∉ m.calls

def Joined (m : Memory) : Prop := ∃ thread, Last thread m ∧ .pthreadJoin (some thread) ∈ m.calls

def Down (m : Memory) : Prop := Quiet m ∧ (m.native.running = true → m.native.thread = none)

def Up (m : Memory) : Prop := m.native.running = true ∧ Live m

def EnginePhase.Assert : EnginePhase → Site → Memory → Prop
  | .out, _, m => Down m ∨ Up m ∧ ∃ o, m.current = some o ∧ m.engine o = true
  | .check, site, m => m.current = some site.service ∧ (Down m ∨ Up m ∧ m.engine site.service = true)
  | .clear, site, m => m.current = some site.service ∧
    (Quiet m ∧ m.native.thread = none ∨ Live m)
  | .join, site, m => m.current = some site.service ∧ m.native.running = false ∧
    (Quiet m ∧ m.native.thread = none ∨ Live m)
  | .tearDown, site, m => m.current = some site.service ∧ m.native.running = false ∧
    (Quiet m ∧ m.native.thread = none ∨ Joined m)
  | .down, site, m | .closed, site, m => m.current = some site.service ∧ Down m
  | .launching, site, m => m.current = some site.service ∧ m.engine site.service = true ∧ Quiet m
  | .zeroed, site, m => m.current = some site.service ∧ m.engine site.service = true ∧ Quiet m ∧
    m.native.thread = none
  | .booting, site, m => m.current = some site.service ∧ m.engine site.service = true ∧ Quiet m ∧
    m.native.thread = none ∧ m.native.running = true
  | .bad, _, _ => False

/-- The calls so far are as promised, threads were created and not joined, and the next
thread will be a new one. -/
structure Sound (m : Memory) : Prop where
  judged : Judged WellTimed m.calls
  below : ∀ thread, .pthreadCreate thread ∈ m.calls → thread < m.fresh
  alive : ∀ thread ∈ m.threads, .pthreadCreate thread ∈ m.calls ∧ .pthreadJoin (some thread) ∉ m.calls

theorem Sound.later {m after : Memory} (sound : Sound m) (calls : after.calls = m.calls)
    (threads : ∀ thread ∈ after.threads, thread ∈ m.threads) (fresh : m.fresh ≤ after.fresh) : Sound after where
  judged := calls ▸ sound.judged
  below thread among := (sound.below thread (calls ▸ among)).trans_le fresh
  alive thread among := calls ▸ sound.alive thread (threads thread among)

def EnginePhase.Holds (phase : EnginePhase) (site : Site) (m : Memory) : Prop := Sound m ∧ phase.Assert site m

/-! ### Statements that leave the engine alone -/

structure SameEngine (m after : Memory) : Prop where
  running : after.native.running = m.native.running
  thread : after.native.thread = m.native.thread
  calls : after.calls = m.calls
  threads : ∀ thread ∈ after.threads, thread ∈ m.threads
  current : after.current = m.current
  engine : after.engine = m.engine
  fresh : m.fresh ≤ after.fresh

theorem SameEngine.holds {m after : Memory} (same : SameEngine m after) {phase : EnginePhase} {site : Site}
    (holds : phase.Holds site m) : phase.Holds site after := by
  obtain ⟨sound, assert⟩ := holds
  obtain ⟨running, thread, calls, threads, current, engine, fresh⟩ := same
  refine ⟨sound.later calls threads fresh, ?_⟩
  cases phase
  case bad => exact assert
  all_goals simpa only [EnginePhase.Assert, Quiet, Last, Live, Joined, Down, Up, running, thread, calls, current,
    engine] using assert

def Stmt.drivesEngine : Stmt → Bool
  | .stopEngine | .returnUnlessRunning | .clearRunning | .joinThread | .tearDown | .buildVpnFd | .newEngine
  | .newShaper | .startEngine | .memset | .setFields _ | .cacheRefs | .initLocks | .createEpoll | .watchTun
  | .createThread | .clearEngine | .clearInstance => true
  | _ => false

@[simp] theorem engineOutline_out : engineOutline.out = .out := rfl

@[simp] theorem engineOutline_pre (stmt : Stmt) (phase : EnginePhase) :
    engineOutline.pre stmt phase = EnginePhase.pre stmt phase := rfl

theorem not_inside_launched : ¬engineOutline.Inside startBody ∧ ¬engineOutline.Inside reconnectBody ∧
    ¬engineOutline.Inside collectStats := by decide

theorem exec_aside {stmt : Stmt} (aside : stmt.drivesEngine = false) (o : Nat) (answer : Answer) (m : Memory)
    (rest : List Stmt) {handler : List Stmt} (recovers : handler = [] ∨ handler = onFailure) :
    (stmt.exec o answer m).Leads m rest handler fun after code new =>
      SameEngine m after ∧ (∀ launched ∈ new, ¬engineOutline.Inside launched.code) ∧
        (engineOutline.phase (stmt :: rest) ≠ .bad →
          engineOutline.phase code = engineOutline.phase (stmt :: rest)) := by
  have recovered : engineOutline.phase handler = .out := by rcases recovers with rfl | rfl <;> rfl
  have outside := not_inside_launched
  cases stmt <;> simp only [Stmt.drivesEngine, reduceCtorEq] at aside <;> simp only [Stmt.exec] <;>
    (repeat' split) <;> simp only [Outcome.Leads]
  all_goals refine ⟨⟨rfl, rfl, rfl, fun _ => id, rfl, rfl, by simp⟩, by simp [outside], ?_⟩
  all_goals simp only [List.nil_append, List.cons_append, Outline.phase_cons, Outline.phase_nil, engineOutline_out,
    engineOutline_pre, updateCaps, recovered]
  all_goals first
    | exact fun _ => rfl
    | generalize engineOutline.phase rest = phase; cases phase <;> simp [EnginePhase.pre]

/-! ### Statements of the section -/

def NativeCall.aside : NativeCall → Bool
  | .newGlobalRef _ | .deleteGlobalRef _ | .initLocks | .destroyLocks | .epollCreate _ | .closeEpoll _ => true
  | _ => false

theorem judged_aside {calls new : List NativeCall} (judged : Judged WellTimed calls)
    (aside : ∀ call ∈ new, call.aside = true) : Judged WellTimed (calls ++ new) := by
  induction new generalizing calls with
  | nil => rwa [List.append_nil]
  | cons call new ih =>
    rw [List.forall_mem_cons] at aside
    rw [← List.singleton_append, ← List.append_assoc]
    refine ih (judged_concat.mpr ⟨judged, ?_⟩) aside.2
    cases call <;> first | trivial | cases aside.1

theorem not_mem_aside {new : List NativeCall} (aside : ∀ call ∈ new, call.aside = true) (thread : Nat) :
    .pthreadCreate thread ∉ new ∧ .pthreadJoin (some thread) ∉ new := by
  constructor <;> intro among <;> cases aside _ among

section
variable {m after : Memory} {new : List NativeCall}

theorem Sound.append (sound : Sound m) (calls : after.calls = m.calls ++ new)
    (judged : Judged WellTimed (m.calls ++ new)) (creates : ∀ thread, .pthreadCreate thread ∉ new)
    (joins : ∀ thread ∈ m.threads, .pthreadJoin (some thread) ∉ new) (threads : after.threads = m.threads)
    (fresh : m.fresh ≤ after.fresh) : Sound after where
  judged := calls ▸ judged
  below thread among := by
    rw [calls, List.mem_append, or_iff_left (creates thread)] at among
    exact (sound.below thread among).trans_le fresh
  alive thread among := by
    rw [threads] at among
    have before := sound.alive thread among
    rw [calls, List.mem_append, List.mem_append, or_iff_left (joins thread among)]
    exact ⟨.inl before.1, before.2⟩

theorem Sound.aside (sound : Sound m) (aside : ∀ call ∈ new, call.aside = true)
    (calls : after.calls = m.calls ++ new) (threads : after.threads = m.threads)
    (fresh : m.fresh ≤ after.fresh) : Sound after :=
  sound.append calls (judged_aside sound.judged aside) (fun thread => (not_mem_aside aside thread).1)
    (fun thread _ => (not_mem_aside aside thread).2) threads fresh

theorem Quiet.aside (quiet : Quiet m) (aside : ∀ call ∈ new, call.aside = true)
    (calls : after.calls = m.calls ++ new) : Quiet after := by
  intro thread among
  rw [calls, List.mem_append, or_iff_left (not_mem_aside aside thread).1] at among
  exact calls ▸ List.mem_append_left _ (quiet thread among)

theorem Live.joined (live : Live m) (sound : Sound m) (ended : ∀ thread ∈ m.native.thread, thread ∉ m.threads) :
    Sound (m.log [.pthreadJoin m.native.thread]) ∧ Joined (m.log [.pthreadJoin m.native.thread]) := by
  obtain ⟨thread, ⟨same, others⟩, before, unjoined⟩ := live
  constructor
  · apply sound.append rfl
    · rw [same]
      exact judged_concat.mpr ⟨sound.judged, mem_created.mpr before, unjoined⟩
    · simp
    · intro other among joins
      exact ended other (Option.mem_def.mpr (by simpa [eq_comm] using joins)) among
    · rfl
    · exact le_rfl
  · refine ⟨thread, ⟨same, ?_⟩, by simp [Memory.log, same]⟩
    intro other among
    exact (others other (by simpa [Memory.log] using among)).imp_right (List.mem_append_left _)

theorem Quiet.joined (quiet : Quiet m) (sound : Sound m) (none : m.native.thread = none) :
    Sound (m.log [.pthreadJoin m.native.thread]) ∧ Quiet (m.log [.pthreadJoin m.native.thread]) := by
  rw [none]
  constructor
  · exact sound.append rfl (judged_concat.mpr ⟨sound.judged, trivial⟩) (by simp) (by simp) rfl le_rfl
  · intro other among
    exact List.mem_append_left _ (quiet other (by simpa [Memory.log] using among))

theorem tearDown_quiet (sound : Sound m) (stopped : Quiet m ∧ m.native.thread = none ∨ Joined m)
    {released : List NativeCall} (aside : ∀ call ∈ released, call.aside = true) :
    Sound (m.log (released ++ [.stopDone m.native.thread])) ∧
      Quiet (m.log (released ++ [.stopDone m.native.thread])) := by
  have before := judged_aside sound.judged aside
  have creates : ∀ thread, .pthreadCreate thread ∉ released ++ [.stopDone m.native.thread] := by
    intro thread among
    simp [(not_mem_aside aside thread).1] at among
  constructor
  · apply sound.append rfl
    · rw [← List.append_assoc]
      refine judged_concat.mpr ⟨before, ?_⟩
      rcases stopped with ⟨-, none⟩ | ⟨thread, ⟨same, -⟩, joined⟩
      · rw [none]
        trivial
      · rw [same]
        exact List.mem_append_left _ joined
    · exact creates
    · intro thread _ among
      simp [(not_mem_aside aside thread).2] at among
    · rfl
    · exact le_rfl
  · intro other among
    have unmoved := (List.mem_append.mp among).resolve_right (creates other)
    unfold Memory.log
    rcases stopped with ⟨quiet, -⟩ | ⟨thread, ⟨same, others⟩, -⟩
    · exact List.mem_append_left _ (quiet other unmoved)
    · rcases others other unmoved with rfl | done
      · simp [same]
      · exact List.mem_append_left _ done

theorem Quiet.memset (quiet : Quiet m) (sound : Sound m) (calls : after.calls = m.calls ++ [.memset])
    (threads : after.threads = m.threads) (fresh : m.fresh ≤ after.fresh) : Sound after ∧ Quiet after := by
  constructor
  · apply sound.append calls _ (by simp) (by simp) threads fresh
    exact judged_concat.mpr ⟨sound.judged, fun other among => quiet other (mem_created.mp among)⟩
  · intro other among
    exact calls ▸ List.mem_append_left _ (quiet other (by simpa [calls] using among))

theorem Quiet.pthreadCreate (quiet : Quiet m) (sound : Sound m)
    (calls : after.calls = m.calls ++ [.pthreadCreate m.fresh]) (thread : after.native.thread = some m.fresh)
    (threads : after.threads = m.fresh :: m.threads) (fresh : after.fresh = m.fresh + 1) :
    Sound after ∧ Live after := by
  have unjoined : .pthreadJoin (some m.fresh) ∉ after.calls := by
    intro joined
    have among : .pthreadJoin (some m.fresh) ∈ m.calls := by simpa [calls] using joined
    exact absurd (sound.below _ (created_of_joined sound.judged among)) (lt_irrefl _)
  constructor
  · constructor
    · rw [calls]
      exact judged_concat.mpr ⟨sound.judged, trivial⟩
    · intro other among
      rw [calls, List.mem_append, List.mem_singleton, NativeCall.pthreadCreate.injEq] at among
      rcases among with among | rfl
      · exact (sound.below other among).trans (by omega)
      · omega
    · intro other among
      rw [threads, List.mem_cons] at among
      rcases among with rfl | among
      · exact ⟨by simp [calls], unjoined⟩
      · obtain ⟨before, open_⟩ := sound.alive other among
        exact ⟨calls ▸ List.mem_append_left _ before, by simpa [calls] using open_⟩
  · refine ⟨m.fresh, ⟨thread, ?_⟩, by simp [calls], unjoined⟩
    intro other among
    rw [calls, List.mem_append, List.mem_singleton, NativeCall.pthreadCreate.injEq] at among
    rcases among with among | same
    · exact .inr (calls ▸ List.mem_append_left _ (quiet other among))
    · exact .inl same

end

theorem turn_to {site : Site} {after : Memory} {code : List Stmt} {q : EnginePhase}
    (phase : engineOutline.phase code = q) (sound : Sound after) (assert : q.Assert site after) :
    engineOutline.Turn EnginePhase.Holds site after code [] :=
  ⟨by simp, phase ▸ ⟨sound, assert⟩⟩

theorem failed {site : Site} {m : Memory} {handler : List Stmt} (recovered : engineOutline.phase handler = .out)
    (sound : Sound m) (booting : EnginePhase.booting.Assert site m) : engineOutline.Turn EnginePhase.Holds site
      (m.log [.closeEpoll m.native.epollFd]) handler [] := by
  obtain ⟨-, -, quiet, none, -⟩ := booting
  have aside : ∀ call ∈ [NativeCall.closeEpoll m.native.epollFd], call.aside = true := by simp [NativeCall.aside]
  exact turn_to (q := .out) recovered (sound.aside aside rfl rfl le_rfl) (.inl ⟨quiet.aside aside rfl, fun _ => none⟩)

def Stmt.stopsEngine : Stmt → Bool
  | .stopEngine | .returnUnlessRunning | .clearRunning | .joinThread | .tearDown => true
  | _ => false

def Stmt.startsEngine : Stmt → Bool
  | .memset | .setFields _ | .cacheRefs | .initLocks | .createEpoll | .watchTun | .createThread => true
  | _ => false

section
variable {stmt : Stmt} {site : Site} {m : Memory} {rest handler : List Stmt} (answer : Answer)

theorem exec_stopsEngine (stopsEngine : stmt.stopsEngine = true)
    (attended : stmt = .stopEngine → m.current = some site.service)
    (holds : (engineOutline.phase (stmt :: rest)).Holds site m) :
    (stmt.exec site.service answer m).Leads m rest handler (engineOutline.Turn EnginePhase.Holds site) := by
  rw [Outline.phase_cons, engineOutline_pre] at holds
  generalize phase : engineOutline.phase rest = next at holds
  obtain ⟨sound, assert⟩ := holds
  cases stmt <;> simp only [Stmt.stopsEngine, reduceCtorEq] at stopsEngine <;> cases next <;>
    simp only [EnginePhase.pre, EnginePhase.Assert] at assert
  case stopEngine.down =>
    have current := attended rfl
    -- the live instance is the one with an engine, if there is one
    by_cases engine : m.engine site.service = true
    · rw [Stmt.exec, if_pos engine]
      exact turn_to (q := .check) (by simp [phase, EnginePhase.pre]) sound
        ⟨current, assert.imp_right fun up => ⟨up.1, engine⟩⟩
    · rw [Stmt.exec, if_neg engine]
      refine turn_to (q := .down) (by simp [phase]) sound ⟨current, assert.resolve_right ?_⟩
      rintro ⟨-, o, live, there⟩
      obtain rfl := Option.some.inj (current.symm.trans live)
      exact engine there
  case returnUnlessRunning.down =>
    obtain ⟨current, engine⟩ := assert
    by_cases running : m.native.running = true
    · rw [Stmt.exec, if_pos running]
      refine turn_to (q := .clear) (by simp [phase, EnginePhase.pre, engineStop]) sound ⟨current, ?_⟩
      exact engine.imp (fun down => ⟨down.1, down.2 running⟩) fun up => up.1.2
    · rw [Stmt.exec, if_neg running]
      exact turn_to (q := .down) (by simp [phase]) sound ⟨current, engine.resolve_right fun up => running up.1.1⟩
  case clearRunning.join =>
    exact turn_to (q := .join) (by simp [phase]) ⟨sound.judged, sound.below, sound.alive⟩ ⟨assert.1, rfl, assert.2⟩
  case joinThread.tearDown =>
    obtain ⟨current, halted, engine⟩ := assert
    rw [Stmt.exec]
    split
    · trivial
    next joinable =>
    have ended : ∀ thread ∈ m.native.thread, thread ∉ m.threads := by
      intro thread same among
      exact joinable (by simp [Option.mem_def.mp same, among])
    -- after a failed engine_start the handle is zero, and there is nothing to join
    rcases engine with ⟨quiet, none⟩ | live
    · obtain ⟨sound, quiet⟩ := quiet.joined sound none
      exact turn_to (q := .tearDown) (by simp [phase]) sound ⟨current, halted, .inl ⟨quiet, none⟩⟩
    · obtain ⟨sound, joined⟩ := live.joined sound ended
      exact turn_to (q := .tearDown) (by simp [phase]) sound ⟨current, halted, .inr joined⟩
  case tearDown.down =>
    obtain ⟨current, halted, engine⟩ := assert
    have released : ∀ call ∈ NativeCall.closeEpoll m.native.epollFd ::
        m.native.vpnRef.toList.map .deleteGlobalRef ++ [.destroyLocks], call.aside = true := by
      intro call among
      simp only [List.cons_append, List.mem_cons, List.mem_append, List.mem_map, List.not_mem_nil, or_false] at among
      rcases among with rfl | ⟨ref, -, rfl⟩ | rfl <;> rfl
    obtain ⟨sound, quiet⟩ := tearDown_quiet sound engine released
    rw [List.append_assoc, List.singleton_append] at sound quiet
    exact turn_to (q := .down) (by simp [phase]) sound
      ⟨current, quiet, fun running => absurd (halted.symm.trans running) Bool.false_ne_true⟩

theorem exec_startsEngine (startsEngine : stmt.startsEngine = true)
    (recovered : engineOutline.phase handler = .out) (holds : (engineOutline.phase (stmt :: rest)).Holds site m) :
    (stmt.exec site.service answer m).Leads m rest handler (engineOutline.Turn EnginePhase.Holds site) := by
  rw [Outline.phase_cons, engineOutline_pre] at holds
  generalize phase : engineOutline.phase rest = next at holds
  obtain ⟨sound, assert⟩ := holds
  cases stmt <;> simp only [Stmt.startsEngine, reduceCtorEq] at startsEngine <;> cases next <;>
    simp only [EnginePhase.pre, EnginePhase.Assert] at assert
  case memset.zeroed =>
    -- nothing is lost: no thread of an engine is left
    obtain ⟨current, engine, quiet⟩ := assert
    obtain ⟨sound, quiet⟩ := @Quiet.memset m { m.log [.memset] with native := .zero } quiet sound rfl rfl le_rfl
    exact turn_to (q := .zeroed) (by simp [phase]) sound ⟨current, engine, quiet, rfl⟩
  case setFields.booting =>
    exact turn_to (q := .booting) (by simp [phase]) ⟨sound.judged, sound.below, sound.alive⟩
      ⟨assert.1, assert.2.1, assert.2.2.1, assert.2.2.2, rfl⟩
  case cacheRefs.booting =>
    obtain ⟨current, engine, quiet, none, running⟩ := assert
    rw [Stmt.exec]
    split
    · have aside : ∀ call ∈ [NativeCall.newGlobalRef m.fresh], call.aside = true := by simp [NativeCall.aside]
      exact turn_to (q := .booting) (by simp [phase]) (sound.aside aside rfl rfl (Nat.le_succ _))
        ⟨current, engine, quiet.aside aside rfl, none, running⟩
    · have aside : ∀ call ∈ [NativeCall.newGlobalRef m.fresh, .deleteGlobalRef m.fresh], call.aside = true := by
        simp [NativeCall.aside]
      exact turn_to (q := .out) recovered (sound.aside aside rfl rfl (Nat.le_succ _))
        (.inl ⟨quiet.aside aside rfl, fun _ => none⟩)
  case initLocks.booting =>
    obtain ⟨current, engine, quiet, none, running⟩ := assert
    have aside : ∀ call ∈ [NativeCall.initLocks], call.aside = true := by simp [NativeCall.aside]
    exact turn_to (q := .booting) (by simp [phase]) (sound.aside aside rfl rfl le_rfl)
      ⟨current, engine, quiet.aside aside rfl, none, running⟩
  case createEpoll.booting =>
    obtain ⟨current, engine, quiet, none, running⟩ := assert
    rw [Stmt.exec]
    split
    · have aside : ∀ call ∈ [NativeCall.epollCreate m.fresh], call.aside = true := by simp [NativeCall.aside]
      exact turn_to (q := .booting) (by simp [phase]) (sound.aside aside rfl rfl (Nat.le_succ _))
        ⟨current, engine, quiet.aside aside rfl, none, running⟩
    · exact turn_to (q := .out) recovered sound (.inl ⟨quiet, fun _ => none⟩)
  case watchTun.booting =>
    rw [Stmt.exec]
    split
    · exact turn_to (q := .booting) (by simp [phase]) sound assert
    · exact failed recovered sound assert
  case createThread.out =>
    rw [Stmt.exec]
    split
    · obtain ⟨current, engine, quiet, -, running⟩ := assert
      obtain ⟨sound, live⟩ := @Quiet.pthreadCreate m { m.log [.pthreadCreate m.fresh] with
        native := { m.native with thread := some m.fresh }
        threads := m.fresh :: m.threads
        fresh := m.fresh + 1 } quiet sound rfl rfl rfl rfl
      exact turn_to (q := .out) (by simp [phase]) sound (.inr ⟨⟨running, live⟩, _, current, engine⟩)
    · exact failed recovered sound assert

theorem exec_drivesEngine (drivesEngine : stmt.drivesEngine = true) (stops : stmt.stopsEngine = false)
    (starts : stmt.startsEngine = false) (recovered : engineOutline.phase handler = .out)
    (holds : (engineOutline.phase (stmt :: rest)).Holds site m) :
    (stmt.exec site.service answer m).Leads m rest handler (engineOutline.Turn EnginePhase.Holds site) := by
  rw [Outline.phase_cons, engineOutline_pre] at holds
  generalize phase : engineOutline.phase rest = next at holds
  obtain ⟨sound, assert⟩ := holds
  cases stmt <;> simp only [Stmt.drivesEngine, reduceCtorEq] at drivesEngine <;>
    simp only [Stmt.stopsEngine, reduceCtorEq] at stops <;>
    simp only [Stmt.startsEngine, reduceCtorEq] at starts <;> cases next <;>
    simp only [EnginePhase.pre, EnginePhase.Assert] at assert
  case buildVpnFd.down =>
    rw [Stmt.exec]
    split
    · exact turn_to (q := .down) (by simp [phase]) (sound.later rfl (fun _ => id) (Nat.le_succ _)) assert
    · exact turn_to (q := .out) recovered sound (.inl assert.2)
  case newEngine.down =>
    exact turn_to (q := .down) (by simp [phase]) ⟨sound.judged, sound.below, sound.alive⟩ assert
  case newShaper.down =>
    rw [Stmt.exec]
    split
    · exact turn_to (q := .down) (by simp [phase]) (sound.later rfl (fun _ => id) (Nat.le_succ _)) assert
    · exact turn_to (q := .out) recovered sound (.inl assert.2)
  case startEngine.out =>
    rw [Stmt.exec]
    split
    next tun engine opened =>
      split
      · exact turn_to (q := .launching) (by simp [phase, EnginePhase.pre, engineStart]) sound
          ⟨assert.1, engine, assert.2.1⟩
      · exact turn_to (q := .out) recovered sound (.inl assert.2)
    next => exact turn_to (q := .out) recovered sound (.inl assert.2)
  case clearEngine.out =>
    exact turn_to (q := .out) (by simp [phase]) ⟨sound.judged, sound.below, sound.alive⟩ (.inl assert.2)
  -- in onDestroy the section lasts until there is no live instance
  case clearEngine.closed =>
    exact turn_to (q := .closed) (by simp [phase]) ⟨sound.judged, sound.below, sound.alive⟩ assert
  case clearInstance.out =>
    exact turn_to (q := .out) (by simp [phase]) ⟨sound.judged, sound.below, sound.alive⟩ (.inl assert.2)

/-- Every statement does its part in the section. -/
theorem exec_turn (recovers : handler = [] ∨ handler = onFailure)
    (attended : stmt = .stopEngine → m.current = some site.service)
    (holds : (engineOutline.phase (stmt :: rest)).Holds site m) :
    (stmt.exec site.service answer m).Leads m rest handler (engineOutline.Turn EnginePhase.Holds site) := by
  have recovered : engineOutline.phase handler = .out := by rcases recovers with rfl | rfl <;> rfl
  cases driven : stmt.drivesEngine with
  | false =>
    have usable : engineOutline.phase (stmt :: rest) ≠ .bad := fun bad => (bad ▸ holds).2
    apply (exec_aside driven site.service answer m rest recovers).mono
    rintro after code new ⟨same, launched, phase⟩
    exact ⟨launched, (phase usable).symm ▸ same.holds holds⟩
  | true =>
    cases stops : stmt.stopsEngine with
    | true => exact exec_stopsEngine answer stops attended holds
    | false =>
      cases starts : stmt.startsEngine with
      | true => exact exec_startsEngine answer starts recovered holds
      | false => exact exec_drivesEngine answer driven stops starts recovered holds

end

/-! ### Starts that are refused -/

/-- Where a start does not touch the engine: before the check of `engine?.stop()`, and
before `Builder.establish`. -/
def waits : List Stmt → Bool
  | .returnUnlessRunning :: .buildVpnFd :: rest | .buildVpnFd :: rest => engineOutline.phase rest = .down
  | _ => false

/-- A start whose `Builder.establish` is going to be refused is passive where it waits. -/
def Passive (refused : Nat → Bool) (k : Nat) (code : List Stmt) : Prop := refused k = true ∧ waits code = true

instance (refused : Nat → Bool) (k : Nat) (code : List Stmt) : Decidable (Passive refused k code) :=
  inferInstanceAs (Decidable (_ ∧ _))

def engaged (refused : Nat → Bool) (k : Nat) (code : List Stmt) : List Stmt :=
  if Passive refused k code then [] else code

section
variable {refused : Nat → Bool} {k : Nat} {code : List Stmt}

theorem waits_cases (waiting : waits code = true) : ∃ rest, engineOutline.phase rest = .down ∧
    (code = .buildVpnFd :: rest ∨ code = .returnUnlessRunning :: .buildVpnFd :: rest) := by
  unfold waits at waiting
  split at waiting
  next rest => exact ⟨rest, of_decide_eq_true waiting, .inr rfl⟩
  next rest => exact ⟨rest, of_decide_eq_true waiting, .inl rfl⟩
  next => cases waiting

theorem phase_of_waits (waiting : waits code = true) :
    engineOutline.phase code = .check ∨ engineOutline.phase code = .down := by
  obtain ⟨rest, down, rfl | rfl⟩ := waits_cases waiting
  · exact .inr (by simp [down, EnginePhase.pre])
  · exact .inl (by simp [down, EnginePhase.pre])

theorem engaged_of_outside (outside : ¬engineOutline.Inside code) : engaged refused k code = code := by
  refine if_neg fun passive => outside fun out => ?_
  rcases phase_of_waits passive.2 with phase | phase <;> rw [out] at phase <;> cases phase

theorem EnginePhase.Holds.relax {site : Site} {m : Memory} (holds : (engineOutline.phase code).Holds site m)
    (waiting : waits code = true) : EnginePhase.out.Holds site m := by
  obtain ⟨sound, assert⟩ := holds
  rcases phase_of_waits waiting with phase | phase <;> rw [phase] at assert
  · exact ⟨sound, assert.2.imp_right fun up => ⟨up.1, site.service, assert.1, up.2⟩⟩
  · exact ⟨sound, .inl assert.2⟩

theorem turn_engaged {site : Site} {after : Memory} {new : List (Task Site Stmt)}
    (turn : engineOutline.Turn EnginePhase.Holds site after code new) :
    engineOutline.Turn EnginePhase.Holds site after (engaged refused k code) new := by
  refine ⟨turn.1, ?_⟩
  unfold engaged
  split
  next passive => exact turn.2.relax passive.2
  next => exact turn.2

end

/-! ### Runs -/

abbrev EngineGuarded (refused : Nat → Bool) (s : State) : Prop :=
  engineOutline.Guarded EnginePhase.Holds (s.view (engaged refused))

/-- Task `k` comes to its `engine?.stop()`, or if it is passive finds an engine to stop. -/
def Joins (refused : Nat → Bool) (s : State) (k : Nat) (task : Task Site Stmt) : Prop :=
  engineOutline.Enters task ∧ ¬Passive refused k task.code.tail ∨
    Passive refused k task.code ∧ .returnUnlessRunning ∈ task.code.head? ∧ s.memory.native.running = true

instance (refused : Nat → Bool) (s : State) (k : Nat) (task : Task Site Stmt) : Decidable (Joins refused s k task) :=
  inferInstanceAs (Decidable (_ ∧ _ ∨ _ ∧ _ ∧ _))

/-- A task of the live instance joins the section while no other is in it. Starts that
are passive are not counted; each of them is refused. -/
def Exclusive (refused : Nat → Bool) (s : State) : Event → Prop
  | .run k answer => ∀ task ∈ s.tasks[k]?,
    (Joins refused s k task →
      engineOutline.Clear (s.view (engaged refused)) ∧ s.memory.current = some task.site.service) ∧
        (refused k = true → .buildVpnFd ∈ task.code.head? → answer.ok = false)
  | _ => True

instance (refused : Nat → Bool) (s : State) : (event : Event) → Decidable (Exclusive refused s event)
  | .run k _ => inferInstanceAs (Decidable (∀ task ∈ s.tasks[k]?, _))
  | .start | .stop | .revoke | .destroy | .applyCaps _ _ | .available _ _ | .lost _ _ | .exit _ =>
    inferInstanceAs (Decidable True)

theorem engineGuarded_start (refused : Nat → Bool) : EngineGuarded refused State.start where
  holds k task here := by cases here
  only j k task other here := by cases here
  rest _ _ := by
    have none : ∀ call : NativeCall, call ∉ State.start.memory.calls := fun call => List.not_mem_nil
    refine ⟨⟨judged_nil _, fun thread among => absurd among (none _), fun _ among => by cases among⟩,
      .inl ⟨?_, fun _ => rfl⟩⟩
    exact fun thread among => absurd among (none _)

section
variable {refused : Nat → Bool} {s : State}

theorem EngineGuarded.sound (guarded : EngineGuarded refused s) : Sound s.memory := by
  obtain ⟨phase, site, sound, -⟩ := Outline.Guarded.somewhere guarded ⟨.main, 0⟩
  exact sound

theorem at_engaged {k : Nat} {task : Task Site Stmt} (here : s.At k task) (active : ¬Passive refused k task.code) :
    (s.view (engaged refused)).At k task := by
  have there : (s.view (engaged refused)).At k { task with code := engaged refused k task.code } :=
    System.at_view here
  rwa [engaged, if_neg active] at there

section
variable {k : Nat} {task : Task Site Stmt} {after : Memory} {code : List Stmt} {new : List (Task Site Stmt)}

theorem EngineGuarded.usable (guarded : EngineGuarded refused s) (here : s.At k task) :
    engineOutline.phase task.code ≠ .bad := by
  intro bad
  have active : ¬Passive refused k task.code := fun passive => by
    rcases phase_of_waits passive.2 with phase | phase <;> rw [bad] at phase <;> cases phase
  have holds := guarded.holds k task (at_engaged here active) fun out => by rw [bad] at out; cases out
  rw [bad] at holds
  exact holds.2

theorem EngineGuarded.turn (here : s.At k task)
    (alone : ∀ j other, (s.view (engaged refused)).At j other → engineOutline.Inside other.code → j = k)
    (turn : engineOutline.Turn EnginePhase.Holds task.site after code new) :
    EngineGuarded refused (s.replace k task after code new) := by
  unfold EngineGuarded
  rw [System.view_replace after code fun launched among j => engaged_of_outside (turn.1 launched among)]
  exact Outline.Guarded.turn (fun _ _ _ holds => holds) (System.at_view here) alone (turn_engaged turn)

theorem EngineGuarded.passes (guarded : EngineGuarded refused s) (here : s.At k task)
    (idle : ¬engineOutline.Inside (engaged refused k task.code))
    (passes : engineOutline.Passes EnginePhase.Holds s.memory after (engaged refused k code) new) :
    EngineGuarded refused (s.replace k task after code new) := by
  unfold EngineGuarded
  rw [System.view_replace after code fun launched among j => engaged_of_outside (passes.1 launched among)]
  exact Outline.Guarded.passes guarded (System.at_view here) idle passes

end

/-- A passive start leaves the engine alone, or stops one while nobody else drives it. -/
theorem EngineGuarded.run_passive (guarded : EngineGuarded refused s) {k : Nat} {task : Task Site Stmt} {stmt : Stmt}
    {rest : List Stmt} {answer : Answer} (recovers : task.handler = [] ∨ task.handler = onFailure)
    (here : s.At k task) (next : task.code = stmt :: rest) (passive : Passive refused k task.code)
    (serial : stmt = .returnUnlessRunning → s.memory.native.running = true →
      engineOutline.Clear (s.view (engaged refused)) ∧ s.memory.current = some task.site.service)
    (refusal : stmt = .buildVpnFd → answer.ok = false) :
    (stmt.exec task.site.service answer s.memory).Leads s.memory rest task.handler
      fun after code new => EngineGuarded refused (s.replace k task after code new) := by
  have idle : ¬engineOutline.Inside (engaged refused k task.code) := by simp [engaged, passive, Outline.Inside]
  obtain ⟨later, down, first | first⟩ := waits_cases passive.2 <;> rw [next] at first <;>
    obtain ⟨rfl, rfl⟩ := List.cons.inj first
  · -- Builder.establish() is refused
    have recovered : ¬engineOutline.Inside task.handler := by rcases recovers with same | same <;> rw [same] <;> decide
    rw [Stmt.exec, refusal rfl]
    refine guarded.passes here idle ⟨by simp, ?_, fun _ _ => id⟩
    rwa [engaged_of_outside recovered]
  · rw [Stmt.exec]
    split
    next running =>
      obtain ⟨clear, current⟩ := serial rfl running
      have alone : ∀ j other, (s.view (engaged refused)).At j other → engineOutline.Inside other.code → j = k :=
        fun j other there inside => absurd inside (clear other there.mem)
      obtain ⟨sound, engine⟩ := guarded.rest clear task.site
      refine EngineGuarded.turn here alone (turn_to (q := .clear) ?_ sound ⟨current, ?_⟩)
      · simp [down, EnginePhase.pre, engineStop]
      · exact engine.imp (fun down => ⟨down.1, down.2 running⟩) fun up => up.1.2
    next =>
      have still : Passive refused k (.buildVpnFd :: later) := ⟨passive.1, decide_eq_true down⟩
      refine guarded.passes here idle ⟨by simp, ?_, fun _ _ => id⟩
      simp [engaged, still, Outline.Inside]

/-- A start that is going to be refused comes to its `engine?.stop()`. -/
theorem EngineGuarded.run_slips (guarded : EngineGuarded refused s) {k : Nat} {task : Task Site Stmt} {stmt : Stmt}
    {rest : List Stmt} (answer : Answer) (here : s.At k task) (next : task.code = stmt :: rest)
    (outside : ¬engineOutline.Inside task.code) (passive : Passive refused k rest) :
    (stmt.exec task.site.service answer s.memory).Leads s.memory rest task.handler
      fun after code new => EngineGuarded refused (s.replace k task after code new) := by
  have idle : ¬engineOutline.Inside (engaged refused k task.code) := by rwa [engaged_of_outside outside]
  have out : engineOutline.phase (stmt :: rest) = .out := next ▸ not_not.mp outside
  obtain ⟨rfl, later, down, rfl⟩ : stmt = .stopEngine ∧
      ∃ later, engineOutline.phase later = .down ∧ rest = .buildVpnFd :: later := by
    obtain ⟨later, down, rfl | rfl⟩ := waits_cases passive.2 <;>
      simp only [Outline.phase_cons, engineOutline_pre, down, EnginePhase.pre] at out
    · refine ⟨?_, later, down, rfl⟩
      cases stmt <;> first | rfl | cases out
    · cases stmt <;> cases out
  have checking : Passive refused k (.returnUnlessRunning :: .buildVpnFd :: later) := ⟨passive.1, decide_eq_true down⟩
  rw [Stmt.exec]
  split <;> refine guarded.passes here idle ⟨by simp, ?_, fun _ _ => id⟩
  · simp [engaged, checking, Outline.Inside]
  · simp [engaged, passive, Outline.Inside]

theorem EngineGuarded.run (guarded : EngineGuarded refused s) (owned : Owned s) {k : Nat} {answer : Answer}
    (exclusive : Exclusive refused s (.run k answer)) : EngineGuarded refused (System.run State.exec answer k s) := by
  apply System.run_of_leads guarded
  intro task stmt rest here next
  obtain ⟨attended, refusal⟩ := exclusive task here
  have recovers := owned.handler task here.mem
  by_cases passive : Passive refused k task.code
  · apply guarded.run_passive recovers here next passive
    · rintro rfl running
      exact attended (.inr ⟨passive, by simp [next], running⟩)
    · rintro rfl
      exact refusal passive.1 (by simp [next])
  have shown := at_engaged here passive
  by_cases within : engineOutline.Inside task.code ∨ engineOutline.Inside rest
  · by_cases slips : ¬engineOutline.Inside task.code ∧ Passive refused k rest
    · exact guarded.run_slips answer here next slips.1 slips.2
    have enters : ¬engineOutline.Inside task.code → Joins refused s k task := fun outside =>
      .inl ⟨⟨outside, next ▸ within.resolve_left outside⟩, fun passive => slips ⟨outside, by rwa [next] at passive⟩⟩
    have alone : ∀ j other, (s.view (engaged refused)).At j other → engineOutline.Inside other.code → j = k := by
      intro j other there inside
      by_cases holder : engineOutline.Inside task.code
      · exact guarded.only j k task other shown there holder inside
      · exact absurd inside ((attended (enters holder)).1 other there.mem)
    have holds := guarded.assertion shown alone
    rw [next] at holds
    refine (exec_turn answer recovers ?_ holds).mono fun after code new => EngineGuarded.turn here alone
    rintro rfl
    refine (attended (enters ?_)).2
    unfold Outline.Inside
    rw [next]
    rw [Outline.phase_cons] at holds ⊢
    generalize engineOutline.phase rest = phase at holds ⊢
    cases phase <;> first | decide | exact False.elim holds.2
  · rw [not_or, next] at within
    have outside : ¬engineOutline.Inside task.code := next ▸ within.1
    have idle : ¬engineOutline.Inside (engaged refused k task.code) := by rwa [engaged_of_outside outside]
    have usable : engineOutline.phase (stmt :: rest) ≠ .bad := by
      rw [not_not.mp within.1]
      decide
    cases driven : stmt.drivesEngine with
    | false =>
      apply (exec_aside driven task.site.service answer s.memory rest recovers).mono
      rintro memory code new ⟨same, launched, phase⟩
      have after : ¬engineOutline.Inside code := by
        unfold Outline.Inside
        rw [phase usable]
        exact within.1
      exact guarded.passes here idle ⟨launched, by rwa [engaged_of_outside after], fun phase site => same.holds⟩
    | true =>
      unfold Outline.Inside at within
      rw [Outline.phase_cons, not_not.mp within.2] at within
      cases stmt <;> first | exact absurd driven Bool.false_ne_true | simp [EnginePhase.pre] at within

theorem EngineGuarded.create (guarded : EngineGuarded refused s) : EngineGuarded refused s.create := by
  unfold State.create
  split
  next vacant =>
    apply Outline.Guarded.memory guarded
    rintro phase site ⟨sound, assert⟩
    have alone : ∀ o, s.memory.current ≠ some o := by simp [vacant.1]
    refine ⟨sound.later rfl (fun _ => id) (Nat.le_succ _), ?_⟩
    cases phase with
    | out => exact .inl (assert.resolve_right fun ⟨_, o, live, _⟩ => alone o live)
    | bad => exact assert
    | check | clear | join | tearDown | down | launching | zeroed | booting | closed =>
      exact absurd assert.1 (alone site.service)
  next => exact guarded

theorem EngineGuarded.step (guarded : EngineGuarded refused s) (owned : Owned s) (event : Event)
    (exclusive : Exclusive refused s event) : EngineGuarded refused (s.step event) := by
  apply State.step_of guarded guarded.create
  · intro s thread code o guarded arrives
    have outside : ¬engineOutline.Inside code := by
      cases arrives with
      | updateCaps dl ul => exact not_not.mpr rfl
      | doStart | doStop | onDestroy | onAvailable | onLost => decide
    unfold EngineGuarded State.call
    rw [System.view_spawn fun j => engaged_of_outside outside]
    exact Outline.Guarded.spawn guarded outside
  · rintro k answer rfl
    exact guarded.run owned exclusive
  · intro thread
    apply Outline.Guarded.memory guarded
    intro phase site
    apply SameEngine.holds
    exact ⟨rfl, rfl, rfl, fun _ => List.mem_of_mem_filter, rfl, rfl, le_rfl⟩

end

/-- In every run in which the sections exclude each other, `engine_start` finds the engine
stopped, and `engine_stop` joins each engine thread once. -/
theorem one_engine {refused : Nat → Bool} {events : List Event}
    (exclusive : Admits State.step (Exclusive refused) State.start events) :
    Judged WellTimed (events.foldl State.step State.start).memory.calls := by
  have both := exclusive.invariant (fun s => EngineGuarded refused s ∧ Owned s)
    (fun s event holds allowed => ⟨holds.1.step holds.2 event allowed, holds.2.step event⟩)
    ⟨engineGuarded_start refused, owned_start⟩
  exact both.1.sound.judged

/-- Between a start and a stop, a second start comes to its `Builder.establish` while the
first waits at its own, and is refused after the first has connected. -/
def startRefusedStopStart : List Event :=
  .start :: Event.runs 0 3 .plain ++ .start :: Event.runs 2 3 .plain ++
    Event.runs 1 3 .plain ++ Event.runs 3 3 .plain ++ Event.runs 1 19 .plain ++
      Event.runs 3 2 { Answer.plain with ok := false } ++ Event.runs 4 2 .plain ++
    .stop :: Event.runs 5 6 .plain ++ .exit 5 :: Event.runs 5 10 .plain ++
      .start :: Event.runs 6 3 .plain ++ Event.runs 7 22 .plain

theorem one_engine_restarted :
    Judged WellTimed (startRefusedStopStart.foldl State.step State.start).memory.calls :=
  @one_engine (· = 3) startRefusedStopStart (by decide +kernel)

/-- A second `START` while the first is still connecting: both coroutines find no engine,
and the second erases the engine that the first has started. -/
def startStart : List Event :=
  .start :: Event.runs 0 3 .plain ++ .start :: Event.runs 2 3 .plain ++
    Event.runs 1 3 .plain ++ Event.runs 3 3 .plain ++ Event.runs 1 11 .plain ++ Event.runs 3 5 .plain

theorem second_start_erases_engine : ¬∀ events : List Event,
    Judged WellTimed (events.foldl State.step State.start).memory.calls := by
  intro always
  exact absurd (always startStart) (by decide +kernel)

end ThrottleVpn.Service
