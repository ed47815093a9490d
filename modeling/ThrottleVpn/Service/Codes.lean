import ThrottleVpn.Service.Lifecycle

/-! What follows what in the code of a task.

A task executes its code from the front, and the functions that it calls on the way
consist of a few statements only. So what is true of every other statement and its
rest in the functions of the source is true of them in every task of every run.
-/

set_option autoImplicit false

namespace ThrottleVpn.Service

open Foundation

def Stmt.called : Stmt → Bool
  | .returnUnlessRunning | .clearRunning | .joinThread | .tearDown | .memset | .setFields _ | .cacheRefs
  | .initLocks | .createEpoll | .watchTun | .createThread | .updateShaperCaps _ _ | .setShaperCaps _ _ _
  | .setDlRate _ | .setUlRate _ | .setDlCap _ | .setUlCap _ | .launchMonitor _ | .cancelMonitor _ => true
  | _ => false

structure Placing (good : Stmt → List Stmt → Prop) : Prop where
  called : ∀ stmt : Stmt, stmt.called = true → ∀ rest, good stmt rest
  launched : InPlace good startBody ∧ InPlace good reconnectBody ∧ InPlace good collectStats
  caught : InPlace good onFailure
  main : InPlace good doStart ∧ InPlace good doStop ∧ InPlace good onDestroy
  network : InPlace good onAvailable ∧ InPlace good onLost

def AllInPlace (good : Stmt → List Stmt → Prop) (s : State) : Prop := ∀ task ∈ s.tasks, InPlace good task.code

section
variable {good : Stmt → List Stmt → Prop} (placing : Placing good)
include placing

theorem exec_inPlace (stmt : Stmt) (o : Nat) (answer : Answer) (m : Memory) {rest handler : List Stmt}
    (recovers : handler = [] ∨ handler = onFailure) (inPlace : InPlace good rest) :
    (stmt.exec o answer m).Leads m rest handler fun _ code new =>
      InPlace good code ∧ ∀ launched ∈ new, InPlace good launched.code := by
  have caught : InPlace good handler := by
    rcases recovers with rfl | rfl
    · trivial
    · exact placing.caught
  have calls : ∀ {calls : List Stmt}, (∀ call ∈ calls, call.called = true) → InPlace good (calls ++ rest) :=
    fun free => inPlace_append (fun call among => placing.called call (free call among)) inPlace
  obtain ⟨start, reconnect, collect⟩ := placing.launched
  cases stmt <;> simp only [Stmt.exec] <;> (repeat' split) <;> simp only [Outcome.Leads]
  all_goals first
    | trivial
    | exact ⟨inPlace, by simp [start, reconnect, collect]⟩
    | exact ⟨caught, by simp⟩
    | exact ⟨trivial, by simp⟩
    | exact ⟨calls (by simp [Stmt.called, engineStart, engineStop, updateCaps]), by simp⟩

theorem AllInPlace.run {s : State} (all : AllInPlace good s) (owned : Owned s) (k : Nat) (answer : Answer) :
    AllInPlace good (System.run State.exec answer k s) := by
  apply System.run_of_leads all
  intro task stmt rest here next
  have before := all task here.mem
  rw [next] at before
  apply (exec_inPlace placing stmt task.site.service answer s.memory (owned.handler task here.mem) before.2).mono
  rintro after code new ⟨inPlace, launched⟩ other among
  rcases System.mem_replace among with rfl | among | among
  · exact inPlace
  · exact all other among
  · exact launched other among

omit placing in
theorem AllInPlace.call {s : State} (all : AllInPlace good s) (thread : Thread) (o : Nat) {code : List Stmt}
    (inPlace : InPlace good code) : AllInPlace good (s.call thread o code) := by
  intro task among
  rcases System.mem_spawn among with among | rfl
  · exact all task among
  · exact inPlace

theorem AllInPlace.step {s : State} (all : AllInPlace good s) (owned : Owned s) (event : Event) :
    AllInPlace good (s.step event) := by
  have created : AllInPlace good s.create := by
    unfold State.create
    split <;> exact all
  have arriving : ∀ {thread : Thread} {code : List Stmt}, State.Arrives thread code → InPlace good code := by
    intro thread code arrives
    cases arrives with
    | doStart => exact placing.main.1
    | doStop => exact placing.main.2.1
    | onDestroy => exact placing.main.2.2
    | updateCaps dl ul =>
      have free : ∀ call ∈ updateCaps dl ul, ∀ rest, good call rest := by
        intro call among
        exact placing.called call (by revert call; simp [updateCaps, Stmt.called])
      exact List.append_nil (updateCaps dl ul) ▸ inPlace_append free trivial
    | onAvailable => exact placing.network.1
    | onLost => exact placing.network.2
  apply State.step_of all created
  · exact fun o all arrives => all.call _ o (arriving arrives)
  · exact fun k answer _ => all.run placing owned k answer
  · exact fun thread => all

omit placing in
theorem allInPlace_start : AllInPlace good State.start := fun task among => by cases among

end

end ThrottleVpn.Service
