import ThrottleVpn.Service.Steps

/-! When `engine_start` fails.

The calls of `engine_start` and `engine_stop` that `establish` and `doStop` make are
executed here one after the other, each by itself. `running` is set before anything
can fail and never cleared on the way out, so a later `engine_stop` works on an
engine that was never started.
-/

set_option autoImplicit false

namespace ThrottleVpn.Service

open Foundation Function

/-! ### Functions of the engine by themselves -/

structure Boot where
  methodLookup : Bool
  epollCreate : Bool
  epollCtl : Bool
  pthreadCreate : Bool
  deriving DecidableEq, Repr

def Boot.answer (boot : Boot) : Stmt → Answer
  | .cacheRefs => ⟨boot.methodLookup, none⟩
  | .createEpoll => ⟨boot.epollCreate, none⟩
  | .watchTun => ⟨boot.epollCtl, none⟩
  | .createThread => ⟨boot.pthreadCreate, none⟩
  | _ => .plain

def Boot.succeeds (boot : Boot) : Bool :=
  boot.methodLookup && boot.epollCreate && boot.epollCtl && boot.pthreadCreate

/-- `pthread_join` returns once the engine thread has left its loop. -/
def Stmt.alone (answer : Answer) (m : Memory) (stmt : Stmt) : Effect :=
  match stmt.exec 0 answer m with
  | .wait => stmt.exec 0 answer { m with threads := m.threads.filter (some · ≠ m.native.thread) }
  | outcome => outcome

/-- A function of the engine, and whether it came to its end. -/
def runAlone (answer : Stmt → Answer) : Memory → List Stmt → Memory × Bool
  | m, [] => (m, true)
  | m, stmt :: rest =>
    match stmt.alone (answer stmt) m with
    | .proceed after _ => runAlone answer after rest
    | .raise after => (after, false)
    | .launch _ | .finish | .wait => (m, false)

def startAlone (tun : Nat) (boot : Boot) (m : Memory) : Memory × Bool :=
  runAlone boot.answer m (engineStart tun)

def stopAlone (m : Memory) : Memory :=
  if m.native.running then (runAlone (fun _ => .plain) m engineStop).1 else m

def Memory.engineStopped (o : Nat) (m : Memory) : Memory := if m.engine o then stopAlone m else m

/-- What the service does with the engine: `establish`, where `Builder.establish` can
refuse, and `doStop`. -/
inductive EngineCall where
  | establish (tun : Nat) (built : Bool) (boot : Boot)
  | doStop
  deriving DecidableEq, Repr

def EngineCall.apply (o : Nat) (m : Memory) : EngineCall → Memory × Bool
  | .establish tun built boot =>
    let stopped := m.engineStopped o
    if built then startAlone tun boot { stopped with engine := update stopped.engine o true }
    else (stopped, true)
  | .doStop =>
    let stopped := m.engineStopped o
    ({ stopped with engine := update stopped.engine o false }, true)

def applyAll (o : Nat) (m : Memory) (calls : List EngineCall) : Memory :=
  calls.foldl (fun m call => (call.apply o m).1) m

/-! ### What is promised -/

def WellReleased (past : List NativeCall) : NativeCall → Prop
  | .deleteGlobalRef ref => .newGlobalRef ref ∈ past ∧ .deleteGlobalRef ref ∉ past
  | .closeEpoll (some fd) => .epollCreate fd ∈ past ∧ .closeEpoll (some fd) ∉ past
  | .closeEpoll none => False
  | .destroyLocks => past.count .destroyLocks < past.count .initLocks
  | .pthreadJoin (some thread) => .pthreadCreate thread ∈ past ∧ .pthreadJoin (some thread) ∉ past
  | .pthreadJoin none => False
  | _ => True

instance (past : List NativeCall) : (call : NativeCall) → Decidable (WellReleased past call)
  | .deleteGlobalRef _ | .closeEpoll (some _) | .pthreadJoin (some _) => inferInstanceAs (Decidable (_ ∧ _))
  | .destroyLocks => inferInstanceAs (Decidable (_ < _))
  | .closeEpoll none | .pthreadJoin none => inferInstanceAs (Decidable False)
  | .memset | .newGlobalRef _ | .initLocks | .epollCreate _ | .pthreadCreate _ | .stopDone _ =>
    inferInstanceAs (Decidable True)

structure Released (calls : List NativeCall) : Prop where
  refs : ∀ ref, .newGlobalRef ref ∈ calls → .deleteGlobalRef ref ∈ calls
  epolls : ∀ fd, .epollCreate fd ∈ calls → .closeEpoll (some fd) ∈ calls
  locks : calls.count .destroyLocks = calls.count .initLocks
  threads : ∀ thread, .pthreadCreate thread ∈ calls → .pthreadJoin (some thread) ∈ calls

/-- After a failed start nothing runs and nothing is held, and whatever is called next
releases what is held, once. -/
structure CleanFailures (o : Nat) (calls : List EngineCall) : Prop where
  stopped : ∀ past call, past ++ [call] <+: calls →
    (call.apply o (applyAll o .start past)).2 = false →
      (call.apply o (applyAll o .start past)).1.native.running = false ∧
        Released (call.apply o (applyAll o .start past)).1.calls
  judged : Judged WellReleased (applyAll o .start calls).calls

def EngineCall.Succeeds : EngineCall → Prop
  | .establish _ built boot => built = true → boot.succeeds = true
  | .doStop => True

instance : (call : EngineCall) → Decidable call.Succeeds
  | .establish _ _ _ => inferInstanceAs (Decidable (_ → _))
  | .doStop => inferInstanceAs (Decidable True)

/-! ### One call -/

theorem startAlone_succeeds {boot : Boot} (succeeds : boot.succeeds = true) (tun : Nat) (m : Memory) :
    startAlone tun boot m = ({ m with
      native := ⟨some tun, true, some m.fresh, some (m.fresh + 1), some (m.fresh + 2), 1000000000, 1000000000⟩
      calls := m.calls ++ [.memset, .newGlobalRef m.fresh, .initLocks, .epollCreate (m.fresh + 1),
        .pthreadCreate (m.fresh + 2)]
      threads := (m.fresh + 2) :: m.threads
      fresh := m.fresh + 3 }, true) := by
  obtain ⟨lookup, create, control, thread⟩ := boot
  simp only [Boot.succeeds, Bool.and_eq_true] at succeeds
  obtain ⟨⟨⟨rfl, rfl⟩, rfl⟩, rfl⟩ := succeeds
  simp [startAlone, engineStart, runAlone, Stmt.alone, Stmt.exec, Boot.answer, Memory.log, Engine.zero]

theorem startAlone_fails {boot : Boot} (fails : boot.succeeds = false) (tun : Nat) (m : Memory) :
    (startAlone tun boot m).2 = false ∧ (startAlone tun boot m).1.native.running = true := by
  obtain ⟨lookup, create, control, thread⟩ := boot
  cases lookup <;> cases create <;> cases control <;> cases thread <;> simp [Boot.succeeds] at fails <;>
    simp [startAlone, engineStart, runAlone, Stmt.alone, Stmt.exec, Boot.answer, Memory.log]

theorem stopAlone_running {m : Memory} {ref epoll thread : Nat} (running : m.native.running = true)
    (refIs : m.native.vpnRef = some ref) (epollIs : m.native.epollFd = some epoll)
    (threadIs : m.native.thread = some thread) :
    ∃ threads, stopAlone m = { m with
      native := { m.native with running := false }
      calls := m.calls ++ [.pthreadJoin (some thread), .closeEpoll (some epoll), .deleteGlobalRef ref,
        .destroyLocks, .stopDone (some thread)]
      threads := threads } := by
  by_cases alive : thread ∈ m.threads
  · refine ⟨m.threads.filter (some · ≠ some thread), ?_⟩
    simp [stopAlone, engineStop, runAlone, Stmt.alone, Stmt.exec, Memory.log, running, refIs, epollIs, threadIs,
      alive]
  · refine ⟨m.threads, ?_⟩
    simp [stopAlone, engineStop, runAlone, Stmt.alone, Stmt.exec, Memory.log, running, refIs, epollIs, threadIs,
      alive]

theorem stopAlone_stopped {m : Memory} (stopped : m.native.running = false) : stopAlone m = m :=
  if_neg (by simp [stopped])

/-! ### Sequences without a failure -/

structure Below (fresh : Nat) (calls : List NativeCall) : Prop where
  refs : ∀ ref, .newGlobalRef ref ∈ calls → ref < fresh
  epolls : ∀ fd, .epollCreate fd ∈ calls → fd < fresh
  threads : ∀ thread, .pthreadCreate thread ∈ calls → thread < fresh

structure Holding (ref epoll thread : Nat) (calls : List NativeCall) : Prop where
  refs : ∀ other, .newGlobalRef other ∈ calls → other = ref ∨ .deleteGlobalRef other ∈ calls
  epolls : ∀ other, .epollCreate other ∈ calls → other = epoll ∨ .closeEpoll (some other) ∈ calls
  locks : calls.count .initLocks = calls.count .destroyLocks + 1
  threads : ∀ other, .pthreadCreate other ∈ calls → other = thread ∨ .pthreadJoin (some other) ∈ calls
  ref : .newGlobalRef ref ∈ calls ∧ .deleteGlobalRef ref ∉ calls
  epoll : .epollCreate epoll ∈ calls ∧ .closeEpoll (some epoll) ∉ calls
  thread : .pthreadCreate thread ∈ calls ∧ .pthreadJoin (some thread) ∉ calls

/-- Between two calls the engine is stopped and nothing is held, or it runs and is the
engine of the instance. -/
structure Accounted (o : Nat) (m : Memory) : Prop where
  judged : Judged WellReleased m.calls
  below : Below m.fresh m.calls
  engine : m.native.running = false ∧ Released m.calls ∨
    m.native.running = true ∧ m.engine o = true ∧ ∃ ref epoll thread, m.native.vpnRef = some ref ∧
      m.native.epollFd = some epoll ∧ m.native.thread = some thread ∧ Holding ref epoll thread m.calls

theorem accounted_start (o : Nat) : Accounted o .start where
  judged := judged_nil _
  below := by constructor <;> intro _ among <;> cases among
  engine := .inl ⟨rfl, by constructor <;> first | rfl | (intro _ among; cases among)⟩

theorem created_of_released {calls : List NativeCall} (judged : Judged WellReleased calls) :
    (∀ ref, .deleteGlobalRef ref ∈ calls → .newGlobalRef ref ∈ calls) ∧
    (∀ fd, .closeEpoll (some fd) ∈ calls → .epollCreate fd ∈ calls) ∧
    ∀ thread, .pthreadJoin (some thread) ∈ calls → .pthreadCreate thread ∈ calls := by
  refine ⟨fun ref among => ?_, fun fd among => ?_, fun thread among => ?_⟩ <;>
    obtain ⟨past, future, rfl⟩ := List.mem_iff_append.mp among
  · exact List.mem_append_left _ (judged past _ future rfl).1
  · exact List.mem_append_left _ (judged past _ future rfl).1
  · exact List.mem_append_left _ (judged past _ future rfl).1

theorem Holding.released {calls : List NativeCall} {ref epoll thread : Nat}
    (holding : Holding ref epoll thread calls) :
    let after := calls ++ [.pthreadJoin (some thread), .closeEpoll (some epoll), .deleteGlobalRef ref,
      .destroyLocks, .stopDone (some thread)]
    Extends WellReleased calls [.pthreadJoin (some thread), .closeEpoll (some epoll), .deleteGlobalRef ref,
      .destroyLocks, .stopDone (some thread)] ∧ Released after := by
  obtain ⟨refs, epolls, locks, threads, ref, epoll, thread⟩ := holding
  refine ⟨?_, ?_, ?_, ?_, ?_⟩
  · simp [Extends, WellReleased, thread, epoll, ref, List.count_append, locks]
  · intro other among
    rcases refs other (by simpa using among) with rfl | gone <;> simp [*]
  · intro other among
    rcases epolls other (by simpa using among) with rfl | gone <;> simp [*]
  · simp [List.count_append, locks]
  · intro other among
    rcases threads other (by simpa using among) with rfl | gone <;> simp [*]

theorem Released.holding {calls : List NativeCall} {fresh : Nat} (released : Released calls)
    (judged : Judged WellReleased calls) (below : Below fresh calls) :
    let after := calls ++ [.memset, .newGlobalRef fresh, .initLocks, .epollCreate (fresh + 1),
      .pthreadCreate (fresh + 2)]
    Extends WellReleased calls [.memset, .newGlobalRef fresh, .initLocks, .epollCreate (fresh + 1),
      .pthreadCreate (fresh + 2)] ∧ Below (fresh + 3) after ∧ Holding fresh (fresh + 1) (fresh + 2) after := by
  obtain ⟨refsCreated, epollsCreated, threadsCreated⟩ := created_of_released judged
  have refNew : .deleteGlobalRef fresh ∉ calls := fun among =>
    absurd (below.refs _ (refsCreated _ among)) (by omega)
  have epollNew : .closeEpoll (some (fresh + 1)) ∉ calls := fun among =>
    absurd (below.epolls _ (epollsCreated _ among)) (by omega)
  have threadNew : .pthreadJoin (some (fresh + 2)) ∉ calls := fun among =>
    absurd (below.threads _ (threadsCreated _ among)) (by omega)
  intro after
  -- what was created is old or new
  have refs : ∀ other, .newGlobalRef other ∈ after → .newGlobalRef other ∈ calls ∨ other = fresh := by simp [after]
  have epolls : ∀ other, .epollCreate other ∈ after → .epollCreate other ∈ calls ∨ other = fresh + 1 := by
    simp [after]
  have threads : ∀ other, .pthreadCreate other ∈ after → .pthreadCreate other ∈ calls ∨ other = fresh + 2 := by
    simp [after]
  refine ⟨by simp [Extends, WellReleased], ⟨?_, ?_, ?_⟩, ?_⟩
  · intro other among
    rcases refs other among with old | rfl
    · exact Nat.lt_add_right 3 (below.refs other old)
    · omega
  · intro other among
    rcases epolls other among with old | rfl
    · exact Nat.lt_add_right 3 (below.epolls other old)
    · omega
  · intro other among
    rcases threads other among with old | rfl
    · exact Nat.lt_add_right 3 (below.threads other old)
    · omega
  · have old : ∀ {call : NativeCall}, call ∈ calls → call ∈ after := List.mem_append_left _
    constructor
    · intro other among
      exact (refs other among).symm.imp_right fun created => old (released.refs other created)
    · intro other among
      exact (epolls other among).symm.imp_right fun created => old (released.epolls other created)
    · simp [after, List.count_append, released.locks]
    · intro other among
      exact (threads other among).symm.imp_right fun created => old (released.threads other created)
    · simp [after, refNew]
    · simp [after, epollNew]
    · simp [after, threadNew]

section
variable {o : Nat} {m : Memory}

theorem Accounted.engineStopped (accounted : Accounted o m) :
    let after := m.engineStopped o
    Judged WellReleased after.calls ∧ Below after.fresh after.calls ∧ after.native.running = false ∧
      Released after.calls := by
  obtain ⟨judged, below, ⟨stopped, released⟩ |
    ⟨running, engine, ref, epoll, thread, refIs, epollIs, threadIs, holding⟩⟩ := accounted
  · have same : m.engineStopped o = m := by
      unfold Memory.engineStopped
      rw [stopAlone_stopped stopped, ite_self]
    rw [same]
    exact ⟨judged, below, stopped, released⟩
  · obtain ⟨threads, after⟩ := stopAlone_running running refIs epollIs threadIs
    obtain ⟨extends_, released⟩ := holding.released
    have same : m.engineStopped o = stopAlone m := if_pos engine
    rw [same, after]
    refine ⟨judged_append.mpr ⟨judged, extends_⟩, ⟨?_, ?_, ?_⟩, rfl, released⟩
    · exact fun other among => below.refs other (by simpa using among)
    · exact fun other among => below.epolls other (by simpa using among)
    · exact fun other among => below.threads other (by simpa using among)

theorem Accounted.apply (accounted : Accounted o m) {call : EngineCall} (succeeds : call.Succeeds) :
    (call.apply o m).2 = true ∧ Accounted o (call.apply o m).1 := by
  obtain ⟨judged, below, stopped, released⟩ := accounted.engineStopped
  cases call with
  | doStop => exact ⟨rfl, judged, below, .inl ⟨stopped, released⟩⟩
  | establish tun built boot =>
    cases built with
    | false => exact ⟨rfl, judged, below, .inl ⟨stopped, released⟩⟩
    | true =>
      obtain ⟨extends_, belowAfter, holding⟩ := released.holding judged below
      simp only [EngineCall.apply, if_true, startAlone_succeeds (succeeds rfl)]
      exact ⟨trivial, judged_append.mpr ⟨judged, extends_⟩, belowAfter,
        .inr ⟨rfl, update_self .., _, _, _, rfl, rfl, rfl, holding⟩⟩

theorem Accounted.applyAll (accounted : Accounted o m) {calls : List EngineCall}
    (succeed : ∀ call ∈ calls, call.Succeeds) :
    Accounted o (applyAll o m calls) := by
  induction calls generalizing m with
  | nil => exact accounted
  | cons call rest ih =>
    rw [List.forall_mem_cons] at succeed
    exact ih (accounted.apply succeed.1).2 succeed.2

end

theorem apply_fails {call : EngineCall} (fails : ¬call.Succeeds) (o : Nat) (m : Memory) :
    (call.apply o m).2 = false ∧ (call.apply o m).1.native.running = true := by
  cases call with
  | doStop => exact absurd trivial fails
  | establish tun built boot =>
    cases built with
    | false => exact absurd (fun built => absurd built Bool.false_ne_true) fails
    | true =>
      have failed : boot.succeeds = false := Bool.eq_false_iff.mpr fun succeeds => fails fun _ => succeeds
      simp only [EngineCall.apply, if_true]
      exact startAlone_fails failed ..

/-- A sequence of calls keeps the promises exactly when no `engine_start` in it fails. -/
theorem clean_failures_iff (o : Nat) (calls : List EngineCall) :
    CleanFailures o calls ↔ ∀ call ∈ calls, call.Succeeds := by
  constructor
  · intro clean call among
    by_contra fails
    obtain ⟨past, future, rfl⟩ := List.mem_iff_append.mp among
    obtain ⟨failed, running⟩ := apply_fails fails o (applyAll o .start past)
    have stopped := (clean.stopped past call ⟨future, by simp⟩ failed).1
    exact Bool.false_ne_true (stopped.symm.trans running)
  · intro succeed
    refine ⟨fun past call start failed => ?_, ((accounted_start o).applyAll succeed).judged⟩
    have among : ∀ other ∈ past ++ [call], other.Succeeds :=
      fun other within => succeed other (start.subset within)
    rw [List.forall_mem_append, List.forall_mem_singleton] at among
    exact absurd (((accounted_start o).applyAll among.1).apply among.2).1 (by simp [failed])

/-- `epoll_ctl` fails, and the service is stopped: the descriptor is closed twice, and a
thread joined that was never created. -/
theorem failed_start_not_clean : ¬∀ o calls, CleanFailures o calls := by
  intro always
  have clean := always 0 [.establish 3 true ⟨true, true, false, true⟩, .doStop]
  exact absurd clean.judged (by decide +kernel)

end ThrottleVpn.Service
