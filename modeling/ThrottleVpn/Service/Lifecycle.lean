import ThrottleVpn.Service.Steps

/-! Whose tasks there are.

At every moment there is at most one live service instance. Tasks of an earlier one may
still be under way, but their scope is cancelled; a call on the main thread always
belongs to the live instance.
-/

set_option autoImplicit false

namespace ThrottleVpn.Service

open Foundation Function

structure Plain (o : Nat) (m : Memory) (rest : List Stmt) (after : Memory) (code : List Stmt)
    (new : List (Task Site Stmt)) : Prop where
  current : after.current = m.current
  cancelled : after.cancelled = m.cancelled
  callbacks : ∀ entry ∈ after.callbacks, entry ∈ m.callbacks ∨ entry.2 = o
  closing : .clearInstance ∈ code → ∃ calls, code = calls ++ rest ∧ .clearInstance ∉ calls
  new : ∀ task ∈ new, task.site.service = o ∧ task.site.thread ≠ .main ∧ .clearInstance ∉ task.code ∧
    (task.handler = [] ∨ task.handler = onFailure)

theorem exec_plain {stmt : Stmt} (cancels : stmt ≠ .cancelScope) (clears : stmt ≠ .clearInstance) (o : Nat)
    (answer : Answer) (m : Memory) (rest : List Stmt) {handler : List Stmt} (safe : .clearInstance ∉ handler) :
    (stmt.exec o answer m).Leads m rest handler (Plain o m rest) := by
  cases stmt <;> simp only [Stmt.exec] <;> (repeat' split) <;> simp only [Outcome.Leads]
  -- the fields of each outcome: unchanged memory, the statements called, the task launched
  all_goals first | trivial | constructor
  all_goals first
    | rfl
    | exact fun _ => ⟨_, rfl, by simp [engineStart, engineStop, updateCaps]⟩
    | exact fun _ => ⟨[], rfl, List.not_mem_nil⟩
    | simp_all [Memory.log, startBody, reconnectBody, collectStats, establish, registerNetCb, or_imp]

/-- Each task belongs to the live instance or to a cancelled one. -/
structure Owned (s : State) : Prop where
  owner : ∀ task ∈ s.tasks, s.memory.current = some task.site.service ∨
    s.memory.cancelled task.site.service = true
  main : ∀ task ∈ s.tasks, task.site.thread = .main → task.code ≠ [] →
    s.memory.current = some task.site.service
  oneMain : ∀ j k task other, s.At j task → s.At k other → task.site.thread = .main →
    other.site.thread = .main → task.code ≠ [] → other.code ≠ [] → j = k
  closing : ∀ task ∈ s.tasks, .clearInstance ∈ task.code → task.site.thread = .main ∧
    (task.code = onDestroy ∨ s.memory.cancelled task.site.service = true) ∧
    ∃ front, task.code = front ++ [.clearInstance] ∧ .clearInstance ∉ front
  handler : ∀ task ∈ s.tasks, task.handler = [] ∨ task.handler = onFailure
  callbacks : ∀ entry ∈ s.memory.callbacks, s.memory.current = some entry.2 ∨
    s.memory.cancelled entry.2 = true

theorem owned_start : Owned State.start := by
  constructor <;> simp [State.start, Memory.start, System.At]

namespace Owned
variable {s : State} {k : Nat} {task : Task Site Stmt} {m : Memory} {code : List Stmt} {new : List (Task Site Stmt)}

theorem cancelled_of_clearInstance (owned : Owned s) (here : s.At k task) {rest : List Stmt}
    (next : task.code = .clearInstance :: rest) : rest = [] ∧ s.memory.cancelled task.site.service = true ∧
      s.memory.current = some task.site.service := by
  obtain ⟨main, begun, front, split, before⟩ := owned.closing task here.mem (by simp [next])
  refine ⟨?_, ?_, owned.main task here.mem main (by simp [next])⟩
  · cases front with
    | nil => exact (List.cons.inj (next.symm.trans split)).2
    | cons first front =>
      obtain ⟨rfl, -⟩ := List.cons.inj (next.symm.trans split)
      exact absurd List.mem_cons_self before
  · rcases begun with whole | cancelled
    · rw [next] at whole
      cases whole
    · exact cancelled

theorem clearInstance (owned : Owned s) (here : s.At k task) {rest : List Stmt}
    (next : task.code = .clearInstance :: rest) :
    Owned (s.replace k task { s.memory with current := none } rest []) := by
  obtain ⟨rfl, cancelled, current⟩ := owned.cancelled_of_clearInstance here next
  have main := (owned.closing task here.mem (by simp [next])).1
  have gone : ∀ o, s.memory.current = some o ∨ s.memory.cancelled o = true → s.memory.cancelled o = true := by
    rintro o (live | dead)
    · obtain rfl := Option.some.inj (current.symm.trans live)
      exact cancelled
    · exact dead
  -- the tasks that have not moved, and this one, which is at its end
  have among : ∀ other ∈ (s.replace k task { s.memory with current := none } [] []).tasks,
      other.code = [] ∧ other.site = task.site ∧ other.handler = task.handler ∨
        ∃ j, j ≠ k ∧ s.At j other := by
    intro other among
    obtain ⟨j, there⟩ := System.exists_at among
    rcases System.at_replace there with ⟨-, rfl⟩ | ⟨distinct, there⟩ | none
    · exact .inl ⟨rfl, rfl, rfl⟩
    · exact .inr ⟨j, distinct, there⟩
    · cases none
  have idle : ∀ j other, j ≠ k → s.At j other → other.site.thread = .main → other.code = [] := by
    intro j other distinct there also
    by_contra busy
    exact distinct (owned.oneMain j k other task there here also main busy (by simp [next]))
  constructor
  · intro other within
    rcases among other within with ⟨-, same, -⟩ | ⟨j, -, there⟩
    · exact .inr (same ▸ cancelled)
    · exact .inr (gone _ (owned.owner other there.mem))
  · intro other within also busy
    rcases among other within with ⟨done, -⟩ | ⟨j, distinct, there⟩
    · exact absurd done busy
    · exact absurd (idle j other distinct there also) busy
  · intro i j other third there elsewhere also too busy working
    rcases System.at_replace there with ⟨-, rfl⟩ | ⟨distinct, there⟩ | none
    · exact absurd rfl busy
    · exact absurd (idle i other distinct there also) busy
    · cases none
  · intro other within ends
    rcases among other within with ⟨done, -⟩ | ⟨j, -, there⟩
    · rw [done] at ends
      cases ends
    · exact owned.closing other there.mem ends
  · intro other within
    rcases among other within with ⟨-, -, same⟩ | ⟨j, -, there⟩
    · exact same ▸ owned.handler task here.mem
    · exact owned.handler other there.mem
  · intro entry within
    exact .inr (gone _ (owned.callbacks entry within))

theorem move (owned : Owned s) (here : s.At k task) {stmt : Stmt} {rest : List Stmt}
    (next : task.code = stmt :: rest) (current : m.current = s.memory.current)
    (cancelled : ∀ o, s.memory.cancelled o = true → m.cancelled o = true)
    (callbacks : ∀ entry ∈ m.callbacks, entry ∈ s.memory.callbacks ∨ entry.2 = task.site.service)
    (closing : .clearInstance ∈ code → stmt ≠ .clearInstance ∧ m.cancelled task.site.service = true ∧
      ∃ calls, code = calls ++ rest ∧ .clearInstance ∉ calls)
    (launched : ∀ other ∈ new, other.site.service = task.site.service ∧ other.site.thread ≠ .main ∧
      .clearInstance ∉ other.code ∧ (other.handler = [] ∨ other.handler = onFailure)) :
    Owned (s.replace k task m code new) := by
  have kept : ∀ o, s.memory.current = some o ∨ s.memory.cancelled o = true →
      m.current = some o ∨ m.cancelled o = true := by
    rintro o (live | dead)
    · exact .inl (current.trans live)
    · exact .inr (cancelled o dead)
  have unfinished : task.code ≠ [] := by simp [next]
  constructor
  · intro other among
    rcases System.mem_replace among with rfl | among | among
    · exact kept _ (owned.owner task here.mem)
    · exact kept _ (owned.owner other among)
    · rw [(launched other among).1]
      exact kept _ (owned.owner task here.mem)
  · intro other among main busy
    rcases System.mem_replace among with rfl | among | among
    · exact current.trans (owned.main task here.mem main unfinished)
    · exact current.trans (owned.main other among main busy)
    · exact absurd main (launched other among).2.1
  · intro i j other third there elsewhere main also busy working
    rcases System.at_replace there with ⟨rfl, rfl⟩ | ⟨-, stays⟩ | among
    · rcases System.at_replace elsewhere with ⟨rfl, -⟩ | ⟨-, waits⟩ | among
      · rfl
      · exact owned.oneMain i j task third here waits main also unfinished working
      · exact absurd also (launched third among).2.1
    · rcases System.at_replace elsewhere with ⟨rfl, rfl⟩ | ⟨-, waits⟩ | among
      · exact owned.oneMain i j other task stays here main also busy unfinished
      · exact owned.oneMain i j other third stays waits main also busy working
      · exact absurd also (launched third among).2.1
    · exact absurd main (launched other among).2.1
  · intro other among ends
    rcases System.mem_replace among with rfl | among | among
    · obtain ⟨distinct, gone, calls, split, before⟩ := closing ends
      have closes : .clearInstance ∈ rest := (List.mem_append.mp (split ▸ ends)).resolve_left before
      obtain ⟨main, -, front, whole, none⟩ := owned.closing task here.mem (by simp [next, closes])
      refine ⟨main, .inr gone, ?_⟩
      -- the statement that was executed is the first of the front
      cases front with
      | nil =>
        obtain ⟨same, -⟩ := List.cons.inj (next.symm.trans whole)
        exact absurd same distinct
      | cons first front =>
        obtain ⟨-, tail⟩ := List.cons.inj (next.symm.trans whole)
        refine ⟨calls ++ front, by simp [split, tail], ?_⟩
        rw [List.mem_append, not_or]
        exact ⟨before, fun within => none (List.mem_cons_of_mem first within)⟩
    · obtain ⟨main, begun, shape⟩ := owned.closing other among ends
      exact ⟨main, begun.imp_right (cancelled _), shape⟩
    · exact absurd ends (launched other among).2.2.1
  · intro other among
    rcases System.mem_replace among with rfl | among | among
    · exact owned.handler task here.mem
    · exact owned.handler other among
    · exact (launched other among).2.2.2
  · intro entry among
    rcases callbacks entry among with among | same
    · exact kept _ (owned.callbacks entry among)
    · rw [same]
      exact kept _ (owned.owner task here.mem)

theorem run (owned : Owned s) (k : Nat) (answer : Answer) : Owned (System.run State.exec answer k s) := by
  apply System.run_of_leads owned
  intro task stmt rest here next
  by_cases clears : stmt = .clearInstance
  · subst clears
    exact owned.clearInstance here next
  by_cases cancels : stmt = .cancelScope
  · subst cancels
    change Owned _
    apply owned.move here next
    · rfl
    · intro o dead
      by_cases same : o = task.site.service
      · exact same ▸ update_self ..
      · exact (update_of_ne same ..).trans dead
    · exact fun entry among => .inl among
    · exact fun _ => ⟨by decide, update_self .., [], rfl, List.not_mem_nil⟩
    · intro other among
      cases among
  · have safe : .clearInstance ∉ task.handler := by
      rcases owned.handler task here.mem with same | same <;> simp [same, onFailure]
    apply (exec_plain cancels clears task.site.service answer s.memory rest safe).mono
    intro after code new plain
    apply owned.move here next plain.current
    · intro o dead
      rwa [plain.cancelled]
    · exact plain.callbacks
    · intro ends
      obtain ⟨calls, split, before⟩ := plain.closing ends
      refine ⟨clears, ?_, calls, split, before⟩
      have closes : .clearInstance ∈ rest := (List.mem_append.mp (split ▸ ends)).resolve_left before
      obtain ⟨-, whole | gone, -⟩ := owned.closing task here.mem (by simp [next, closes])
      · exact absurd (List.cons.inj (next.symm.trans whole)).1 cancels
      · exact plain.cancelled ▸ gone
    · exact plain.new

theorem call (owned : Owned s) {thread : Thread} {o : Nat} {code : List Stmt}
    (owner : s.memory.current = some o ∨ s.memory.cancelled o = true)
    (main : thread = .main → s.memory.current = some o ∧ s.Idle .main)
    (closing : .clearInstance ∈ code → thread = .main ∧ code = onDestroy) : Owned (s.call thread o code) := by
  constructor
  · intro task among
    rcases System.mem_spawn among with among | rfl
    · exact owned.owner task among
    · exact owner
  · intro task among also busy
    rcases System.mem_spawn among with among | rfl
    · exact owned.main task among also busy
    · exact (main also).1
  · intro i j task other there elsewhere also too busy working
    rcases System.at_spawn there with stays | ⟨rfl, rfl⟩
    · rcases System.at_spawn elsewhere with waits | ⟨rfl, rfl⟩
      · exact owned.oneMain i j task other stays waits also too busy working
      · exact absurd ((main too).2 task stays.mem also) busy
    · rcases System.at_spawn elsewhere with waits | ⟨rfl, -⟩
      · exact absurd ((main also).2 other waits.mem too) working
      · rfl
  · intro task among ends
    rcases System.mem_spawn among with among | rfl
    · exact owned.closing task among ends
    · obtain ⟨also, whole⟩ := closing ends
      exact ⟨also, .inl whole, onDestroy.dropLast, whole, by decide⟩
  · intro task among
    rcases System.mem_spawn among with among | rfl
    · exact owned.handler task among
    · exact .inl rfl
  · exact owned.callbacks

theorem callCurrent (owned : Owned s) {code : List Stmt}
    (closing : .clearInstance ∈ code → code = onDestroy) : Owned (s.callCurrent code) := by
  refine State.callCurrent_of owned fun o current idle => ?_
  exact owned.call (.inl current) (fun _ => ⟨current, idle⟩) fun ends => ⟨rfl, closing ends⟩

theorem callback (owned : Owned s) (callback : Nat) {code : List Stmt} (closing : .clearInstance ∉ code) :
    Owned (s.callback callback code) := by
  refine State.callback_of owned fun o registered => ?_
  exact owned.call (owned.callbacks _ registered) (fun same => by cases same) fun ends => absurd ends closing

theorem create (owned : Owned s) : Owned s.create := by
  unfold State.create
  split
  next vacant =>
    obtain ⟨none, idle⟩ := vacant
    have gone : ∀ o, s.memory.current = some o ∨ s.memory.cancelled o = true → s.memory.cancelled o = true := by
      rintro o (live | dead)
      · rw [none] at live
        cases live
      · exact dead
    exact
      { owner := fun task among => .inr (gone _ (owned.owner task among))
        main := fun task among also busy => absurd (idle task among also) busy
        oneMain := owned.oneMain
        closing := owned.closing
        handler := owned.handler
        callbacks := fun entry among => .inr (gone _ (owned.callbacks entry among)) }
  next => exact owned

theorem step (owned : Owned s) (event : Event) : Owned (s.step event) := by
  cases event with
  | start => exact owned.create.callCurrent (by decide)
  | stop => exact owned.create.callCurrent (by decide)
  | revoke => exact owned.callCurrent (by decide)
  | destroy => exact owned.callCurrent fun _ => rfl
  | applyCaps dl ul => exact owned.callCurrent (by simp [updateCaps])
  | available callback network => exact owned.callback callback (by decide)
  | lost callback network => exact owned.callback callback (by decide)
  | run k answer =>
    simp only [State.step]
    split
    · exact owned
    · exact owned.run k answer
  | exit thread => exact ⟨owned.owner, owned.main, owned.oneMain, owned.closing, owned.handler, owned.callbacks⟩

end Owned

end ThrottleVpn.Service
