import ThrottleVpn.Foundation.Runs

/-! Interleaved tasks over one memory.

A task is the list of statements it still has to execute; a statement that calls a
function puts the statements of that function in front of the rest. A step of the
system executes one statement of one task, so that a run ranges over every order.
-/

set_option autoImplicit false

namespace ThrottleVpn.Foundation

/-- What a task knows of itself, what it still has to do, and what it does instead
once a statement throws. -/
structure Task (Site Stmt : Type) where
  site : Site
  code : List Stmt
  handler : List Stmt
  deriving DecidableEq, Repr

inductive Outcome (Memory Site Stmt : Type) where
  | proceed (memory : Memory) (calls : List Stmt)
  | launch (task : Task Site Stmt)
  | raise (memory : Memory)
  | finish
  | wait

structure System (Memory Site Stmt : Type) where
  memory : Memory
  tasks : List (Task Site Stmt)

variable {Memory Site Stmt Answer Phase : Type}

def Outcome.Leads (memory : Memory) (rest handler : List Stmt)
    (post : Memory → List Stmt → List (Task Site Stmt) → Prop) : Outcome Memory Site Stmt → Prop
  | .proceed after calls => post after (calls ++ rest) []
  | .launch task => post memory rest [task]
  | .raise after => post after handler []
  | .finish => post memory [] []
  | .wait => True

theorem Outcome.Leads.mono {memory : Memory} {rest handler : List Stmt}
    {post weaker : Memory → List Stmt → List (Task Site Stmt) → Prop} {outcome : Outcome Memory Site Stmt}
    (leads : outcome.Leads memory rest handler post)
    (weaken : ∀ after code new, post after code new → weaker after code new) :
    outcome.Leads memory rest handler weaker := by
  cases outcome with
  | wait => trivial
  | proceed | launch | raise | finish => exact weaken _ _ _ leads

theorem Outcome.Leads.and {memory : Memory} {rest handler : List Stmt}
    {first second : Memory → List Stmt → List (Task Site Stmt) → Prop} {outcome : Outcome Memory Site Stmt}
    (left : outcome.Leads memory rest handler first) (right : outcome.Leads memory rest handler second) :
    outcome.Leads memory rest handler fun after code new => first after code new ∧ second after code new := by
  cases outcome with
  | wait => trivial
  | proceed | launch | raise | finish => exact ⟨left, right⟩

/-- Every statement of the code is followed by what `good` lets follow it. -/
def InPlace (good : Stmt → List Stmt → Prop) : List Stmt → Prop
  | [] => True
  | stmt :: rest => good stmt rest ∧ InPlace good rest

theorem inPlace_append {good : Stmt → List Stmt → Prop} {calls rest : List Stmt}
    (free : ∀ call ∈ calls, ∀ others, good call others) (inPlace : InPlace good rest) :
    InPlace good (calls ++ rest) := by
  induction calls with
  | nil => exact inPlace
  | cons call calls ih =>
    rw [List.forall_mem_cons] at free
    exact ⟨free.1 _, ih free.2⟩

namespace System

def At (system : System Memory Site Stmt) (k : Nat) (task : Task Site Stmt) : Prop :=
  system.tasks[k]? = some task

def replace (system : System Memory Site Stmt) (k : Nat) (task : Task Site Stmt) (memory : Memory)
    (code : List Stmt) (new : List (Task Site Stmt)) : System Memory Site Stmt where
  memory := memory
  tasks := system.tasks.set k { task with code := code } ++ new

def run (exec : Site → Answer → Memory → Stmt → Outcome Memory Site Stmt) (answer : Answer) (k : Nat)
    (system : System Memory Site Stmt) : System Memory Site Stmt :=
  match system.tasks[k]? with
  | some task =>
    match task.code with
    | stmt :: rest =>
      match exec task.site answer system.memory stmt with
      | .proceed memory calls => system.replace k task memory (calls ++ rest) []
      | .launch new => system.replace k task system.memory rest [new]
      | .raise memory => system.replace k task memory task.handler []
      | .finish => system.replace k task system.memory [] []
      | .wait => system
    | [] => system
  | none => system

def spawn (system : System Memory Site Stmt) (task : Task Site Stmt) : System Memory Site Stmt :=
  { system with tasks := system.tasks ++ [task] }

variable {system : System Memory Site Stmt} {k : Nat}

/-- A property of the system is kept by a step if it is kept by the statement that it executes. -/
theorem run_of_leads {exec : Site → Answer → Memory → Stmt → Outcome Memory Site Stmt} {answer : Answer}
    {Holds : System Memory Site Stmt → Prop} (before : Holds system)
    (leads : ∀ task stmt rest, system.At k task → task.code = stmt :: rest →
      (exec task.site answer system.memory stmt).Leads system.memory rest task.handler
        fun memory code new => Holds (system.replace k task memory code new)) :
    Holds (system.run exec answer k) := by
  unfold run
  split
  next task here =>
    split
    next stmt rest code =>
      have led := leads task stmt rest here code
      generalize exec task.site answer system.memory stmt = outcome at led ⊢
      cases outcome <;> first | exact led | exact before
    next => exact before
  next => exact before

theorem At.mem {task : Task Site Stmt} (here : system.At k task) : task ∈ system.tasks :=
  List.mem_of_getElem? here

theorem exists_at {task : Task Site Stmt} (among : task ∈ system.tasks) : ∃ k, system.At k task :=
  List.mem_iff_getElem?.mp among

theorem at_replace {task : Task Site Stmt} {memory : Memory} {code : List Stmt}
    {new : List (Task Site Stmt)} {j : Nat} {other : Task Site Stmt}
    (there : (system.replace k task memory code new).At j other) :
    (j = k ∧ other = { task with code := code }) ∨ (j ≠ k ∧ system.At j other) ∨ other ∈ new := by
  unfold At replace at there
  rw [List.getElem?_append] at there
  split at there
  · rw [List.getElem?_set] at there
    split at there
    next same =>
      subst same
      split at there
      · exact .inl ⟨rfl, (Option.some.inj there).symm⟩
      · cases there
    next other => exact .inr (.inl ⟨Ne.symm other, there⟩)
  · exact .inr (.inr (List.mem_of_getElem? there))

theorem at_replace_self {task : Task Site Stmt} (here : system.At k task) (memory : Memory) (code : List Stmt)
    (new : List (Task Site Stmt)) : (system.replace k task memory code new).At k { task with code := code } := by
  obtain ⟨inside, -⟩ := List.getElem?_eq_some_iff.mp here
  unfold At replace
  rw [List.getElem?_append_left (by rwa [List.length_set]), List.getElem?_set_self inside]

theorem at_replace_of_ne {task other : Task Site Stmt} {j : Nat} (distinct : j ≠ k) (there : system.At j other)
    (memory : Memory) (code : List Stmt) (new : List (Task Site Stmt)) :
    (system.replace k task memory code new).At j other := by
  obtain ⟨inside, -⟩ := List.getElem?_eq_some_iff.mp there
  unfold At replace
  rw [List.getElem?_append_left (by rwa [List.length_set]), List.getElem?_set_ne (Ne.symm distinct)]
  exact there

theorem mem_replace {task other : Task Site Stmt} {memory : Memory} {code : List Stmt}
    {new : List (Task Site Stmt)} (among : other ∈ (system.replace k task memory code new).tasks) :
    other = { task with code := code } ∨ other ∈ system.tasks ∨ other ∈ new := by
  obtain ⟨j, there⟩ := exists_at among
  rcases at_replace there with ⟨-, same⟩ | ⟨-, there⟩ | launched
  · exact .inl same
  · exact .inr (.inl there.mem)
  · exact .inr (.inr launched)

theorem exists_replace {Holds : Task Site Stmt → Prop} {task : Task Site Stmt} (here : system.At k task)
    {memory : Memory} {code : List Stmt} {new : List (Task Site Stmt)}
    (kept : Holds task → Holds { task with code := code }) (among : ∃ other ∈ system.tasks, Holds other) :
    ∃ other ∈ (system.replace k task memory code new).tasks, Holds other := by
  obtain ⟨other, among, holds⟩ := among
  obtain ⟨j, there⟩ := exists_at among
  by_cases same : j = k
  · subst same
    obtain rfl := Option.some.inj (there.symm.trans here)
    exact ⟨_, (at_replace_self here memory code new).mem, kept holds⟩
  · exact ⟨other, (at_replace_of_ne same there memory code new).mem, holds⟩

theorem at_spawn {task other : Task Site Stmt} {j : Nat} (there : (system.spawn task).At j other) :
    system.At j other ∨ j = system.tasks.length ∧ other = task := by
  unfold At spawn at there
  rw [List.getElem?_append] at there
  split at there
  · exact .inl there
  next beyond =>
    obtain ⟨inside, same⟩ := List.getElem?_eq_some_iff.mp there
    rw [List.length_singleton] at inside
    exact .inr ⟨by omega, by simpa using same.symm⟩

theorem at_spawn_of_at {task other : Task Site Stmt} {j : Nat} (there : system.At j other) :
    (system.spawn task).At j other := by
  obtain ⟨inside, -⟩ := List.getElem?_eq_some_iff.mp there
  exact (List.getElem?_append_left inside).trans there

theorem at_spawn_new (system : System Memory Site Stmt) (task : Task Site Stmt) :
    (system.spawn task).At system.tasks.length task := by
  simp [At, spawn]

theorem mem_spawn {task other : Task Site Stmt} (among : other ∈ (system.spawn task).tasks) :
    other ∈ system.tasks ∨ other = task := by
  simpa [spawn] using among

/-! ### Views -/

/-- The system as it looks when each task shows only a part of its code. -/
def view (look : Nat → List Stmt → List Stmt) (system : System Memory Site Stmt) : System Memory Site Stmt :=
  { system with tasks := system.tasks.mapIdx fun k task => { task with code := look k task.code } }

section
variable {look : Nat → List Stmt → List Stmt} {task : Task Site Stmt}

theorem at_view (here : system.At k task) : (system.view look).At k { task with code := look k task.code } := by
  unfold At view
  rw [List.getElem?_mapIdx, here]
  rfl

theorem exists_of_at_view (here : (system.view look).At k task) :
    ∃ whole, system.At k whole ∧ task = { whole with code := look k whole.code } := by
  unfold At view at here
  rw [List.getElem?_mapIdx, Option.map_eq_some_iff] at here
  obtain ⟨whole, there, same⟩ := here
  exact ⟨whole, there, same.symm⟩

theorem view_replace (memory : Memory) (code : List Stmt) {new : List (Task Site Stmt)}
    (shown : ∀ launched ∈ new, ∀ j, look j launched.code = launched.code) :
    (system.replace k task memory code new).view look =
      (system.view look).replace k task memory (look k code) new := by
  have same : ∀ start, (new.mapIdx fun j launched => { launched with code := look (start + j) launched.code }) = new := by
    intro start
    apply List.ext_getElem? fun j => ?_
    rw [List.getElem?_mapIdx]
    cases there : new[j]? with
    | none => rfl
    | some launched => simp [shown launched (List.mem_of_getElem? there)]
  simp only [view, replace, List.mapIdx_append, List.mapIdx_set, System.mk.injEq, true_and]
  rw [List.append_right_inj]
  simpa [Nat.add_comm] using same (system.tasks.set k { task with code := code }).length

theorem view_spawn (shown : ∀ j, look j task.code = task.code) :
    (system.spawn task).view look = (system.view look).spawn task := by
  simp [view, spawn, List.mapIdx_append, shown]

end

end System

end ThrottleVpn.Foundation
