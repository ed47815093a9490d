import ThrottleVpn.Service.Codes

/-! The scope of the live instance.

A scope is cancelled by `onDestroy` only, and nothing keeps `onDestroy` from coming to its
end. So when everything is at rest the scope of the instance that is still there is active.
-/

set_option autoImplicit false

namespace ThrottleVpn.Service

open Foundation Function

def Stmt.closes : Stmt → Bool
  | .cancelScope | .clearInstance | .setStatus _ | .stopMonitoring | .cancelMonitor _ | .stopEngine
  | .returnUnlessRunning | .clearRunning | .joinThread | .tearDown | .closeVpnFd | .clearVpnFd | .clearEngine
  | .clearShaper | .setDlCap _ | .setUlCap _ | .unregisterNetCb | .clearNetCb => true
  | _ => false

theorem exec_closes {stmt : Stmt} (closes : stmt.closes = true) (o : Nat) (answer : Answer) (m : Memory)
    (rest handler : List Stmt) :
    (stmt.exec o answer m).Leads m rest handler fun _ code _ =>
      ∃ calls, code = calls ++ rest ∧ ∀ call ∈ calls, call.closes = true := by
  cases stmt <;> simp only [Stmt.closes, Bool.false_eq_true] at closes
  all_goals
    simp only [Stmt.exec]
    repeat' split
  all_goals first
    | trivial
    | exact ⟨_, rfl, by simp [engineStop, Stmt.closes]⟩

theorem exec_scope (stmt : Stmt) (o : Nat) (answer : Answer) (m : Memory) (rest : List Stmt) {handler : List Stmt}
    (recovers : handler = [] ∨ handler = onFailure) :
    (stmt.exec o answer m).Leads m rest handler fun after code new =>
      (after.current = m.current ∧ stmt ≠ .clearInstance ∨ after.current = none) ∧
        (∀ p, after.cancelled p = true → m.cancelled p = true ∨ p = o ∧ stmt = .cancelScope) ∧
        m.fresh ≤ after.fresh ∧ (.clearInstance ∈ code → .clearInstance ∈ rest) ∧
        ∀ launched ∈ new, .clearInstance ∉ launched.code := by
  have caught : .clearInstance ∉ handler := by rcases recovers with rfl | rfl <;> simp [onFailure]
  cases stmt <;> simp only [Stmt.exec] <;> (repeat' split) <;> simp only [Outcome.Leads]
  case cancelScope =>
    refine ⟨.inl ⟨trivial, by simp⟩, fun p dead => ?_, le_rfl, id, by simp⟩
    by_cases same : p = o
    · exact .inr ⟨same, trivial⟩
    · exact .inl ((update_of_ne same ..).symm.trans dead)
  all_goals simp_all [Memory.log, engineStart, engineStop, updateCaps, startBody, reconnectBody, collectStats,
    establish, registerNetCb]

def ClosesLater (stmt : Stmt) (rest : List Stmt) : Prop := stmt = .cancelScope → .clearInstance ∈ rest

theorem placing_closesLater : Placing ClosesLater := by
  constructor
  · intro stmt called rest
    cases stmt <;> simp_all [Stmt.called, ClosesLater]
  all_goals simp [InPlace, ClosesLater, startBody, reconnectBody, collectStats, establish, registerNetCb,
    onFailure, doStart, doStop, onDestroy, onAvailable, onLost]

/-- A scope that was cancelled is that of an instance about to go, or gone. -/
structure Scopes (s : State) : Prop where
  alive : ∀ o, s.memory.current = some o → s.memory.cancelled o = false ∨
    ∃ task ∈ s.tasks, task.site.service = o ∧ .clearInstance ∈ task.code
  closes : ∀ task ∈ s.tasks, .clearInstance ∈ task.code → ∀ stmt ∈ task.code, stmt.closes = true
  below : ∀ o, s.memory.current = some o ∨ s.memory.cancelled o = true → o < s.memory.fresh

theorem scopes_start : Scopes State.start := by
  constructor <;> simp [State.start, Memory.start]

section
variable {s : State}

theorem Scopes.run (scopes : Scopes s) (owned : Owned s) (later : AllInPlace ClosesLater s) (k : Nat)
    (answer : Answer) : Scopes (System.run State.exec answer k s) := by
  apply System.run_of_leads scopes
  intro task stmt rest here next
  have inPlace := later task here.mem
  rw [next] at inPlace
  -- a task that closes the instance goes on to do so
  have closing : (stmt.exec task.site.service answer s.memory).Leads s.memory rest task.handler fun _ code _ =>
      .clearInstance ∈ rest → .clearInstance ∈ code ∧ ∀ stmt ∈ code, stmt.closes = true := by
    by_cases ends : .clearInstance ∈ rest
    · have closes := scopes.closes task here.mem (by simp [next, ends])
      rw [next, List.forall_mem_cons] at closes
      apply (exec_closes closes.1 task.site.service answer s.memory rest task.handler).mono
      rintro - code - ⟨calls, rfl, also⟩ -
      refine ⟨List.mem_append_right _ ends, fun stmt among => ?_⟩
      exact (List.mem_append.mp among).elim (also stmt) (closes.2 stmt)
    · exact (exec_scope stmt _ answer s.memory rest (owned.handler task here.mem)).mono
        fun _ _ _ _ also => absurd also ends
  apply ((exec_scope stmt _ answer s.memory rest (owned.handler task here.mem)).and closing).mono
  rintro after code new ⟨⟨current, cancelled, fresh, kept, launched⟩, closing⟩
  have moved := (System.at_replace_self here after code new).mem
  constructor
  · intro o live
    by_cases active : after.cancelled o = false
    · exact .inl active
    refine .inr ?_
    rcases current with ⟨same, stays⟩ | gone
    · rcases cancelled o (by simpa using active) with dead | ⟨rfl, cancels⟩
      · refine System.exists_replace here ?_ ((scopes.alive o (same ▸ live)).resolve_left fun alive => ?_)
        · rintro ⟨service, ends⟩
          rw [next, List.mem_cons] at ends
          exact ⟨service, (closing (ends.resolve_left (Ne.symm stays))).1⟩
        · cases alive.symm.trans dead
      · exact ⟨_, moved, rfl, (closing (inPlace.1 cancels)).1⟩
    · cases gone.symm.trans live
  · intro other among ends
    rcases System.mem_replace among with rfl | among | among
    · exact (closing (kept ends)).2
    · exact scopes.closes other among ends
    · exact absurd ends (launched other among)
  · intro o within
    refine Nat.lt_of_lt_of_le (scopes.below o ?_) fresh
    rcases within with live | dead
    · rcases current with ⟨same, -⟩ | gone
      · exact .inl (same ▸ live)
      · cases gone.symm.trans live
    · rcases cancelled o dead with dead | ⟨rfl, -⟩
      · exact .inr dead
      · exact owned.owner task here.mem

theorem Scopes.call (scopes : Scopes s) (thread : Thread) (o : Nat) {code : List Stmt}
    (closes : .clearInstance ∈ code → ∀ stmt ∈ code, stmt.closes = true) : Scopes (s.call thread o code) where
  alive o live := by
    refine (scopes.alive o live).imp_right ?_
    rintro ⟨task, among, ends⟩
    exact ⟨task, List.mem_append_left _ among, ends⟩
  closes task among := by
    rcases System.mem_spawn among with among | rfl
    · exact scopes.closes task among
    · exact closes
  below := scopes.below

theorem Scopes.create (scopes : Scopes s) : Scopes s.create := by
  unfold State.create
  split
  next vacant =>
    refine ⟨?_, scopes.closes, ?_⟩
    · rintro o live
      obtain rfl : s.memory.fresh = o := Option.some.inj live
      -- a number that was never given out
      refine .inl (Bool.eq_false_iff.mpr fun dead => ?_)
      exact absurd (scopes.below _ (.inr dead)) (lt_irrefl _)
    · rintro o (live | dead)
      · obtain rfl : s.memory.fresh = o := Option.some.inj live
        exact Nat.lt_succ_self _
      · exact Nat.lt_succ_of_lt (scopes.below o (.inr dead))
  next => exact scopes

theorem Scopes.step (scopes : Scopes s) (owned : Owned s) (later : AllInPlace ClosesLater s) (event : Event) :
    Scopes (s.step event) := by
  apply State.step_of scopes scopes.create
  · intro s thread code o scopes arrives
    refine scopes.call thread o ?_
    cases arrives with
    | updateCaps dl ul => simp [updateCaps]
    | doStart | doStop | onDestroy | onAvailable | onLost => decide
  · exact fun k answer _ => scopes.run owned later k answer
  · exact fun thread => ⟨scopes.alive, scopes.closes, scopes.below⟩

end

/-- Whatever happened, the scope that the next intent finds at rest is active. -/
theorem active_at_rest {events : List Event} (settled : (events.foldl State.step State.start).Settled) {o : Nat}
    (current : (events.foldl State.step State.start).create.memory.current = some o) :
    (events.foldl State.step State.start).create.memory.cancelled o = false := by
  have kept : ∀ s event, Scopes s ∧ Owned s ∧ AllInPlace ClosesLater s →
      Scopes (s.step event) ∧ Owned (s.step event) ∧ AllInPlace ClosesLater (s.step event) := by
    rintro s event ⟨scopes, owned, later⟩
    exact ⟨scopes.step owned later event, owned.step event, later.step placing_closesLater owned event⟩
  obtain ⟨scopes, -⟩ := run_invariant _ kept ⟨scopes_start, owned_start, allInPlace_start⟩ events
  refine (scopes.create.alive o current).resolve_right ?_
  rintro ⟨task, among, -, ends⟩
  have ended : task.code = [] := by
    revert task
    unfold State.create
    split <;> exact fun task among _ => settled task among
  rw [ended] at ends
  cases ends

end ThrottleVpn.Service
