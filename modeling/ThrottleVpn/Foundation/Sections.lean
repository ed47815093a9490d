import ThrottleVpn.Foundation.Threads

/-! Exclusive sections of interleaved tasks.

An outline gives every remaining code its phase, read off from its end. A task whose
phase is not `out` is inside a section. As long as tasks enter their sections alone,
each can be reasoned about as if it ran by itself.
-/

set_option autoImplicit false

namespace ThrottleVpn.Foundation

variable {Memory Site Stmt Answer Phase : Type}

/-- `pre stmt phase` is the phase in which `stmt` is executed when `phase` follows it. -/
structure Outline (Stmt Phase : Type) where
  out : Phase
  pre : Stmt → Phase → Phase

namespace Outline
variable (outline : Outline Stmt Phase)

def phase (code : List Stmt) : Phase := code.foldr outline.pre outline.out

@[simp] theorem phase_nil : outline.phase [] = outline.out := rfl

@[simp] theorem phase_cons (stmt : Stmt) (rest : List Stmt) :
    outline.phase (stmt :: rest) = outline.pre stmt (outline.phase rest) := rfl

def Inside (code : List Stmt) : Prop := outline.phase code ≠ outline.out

instance [DecidableEq Phase] (code : List Stmt) : Decidable (outline.Inside code) :=
  inferInstanceAs (Decidable (_ ≠ _))

def Clear (system : System Memory Site Stmt) : Prop := ∀ task ∈ system.tasks, ¬outline.Inside task.code

instance [DecidableEq Phase] (system : System Memory Site Stmt) : Decidable (outline.Clear system) :=
  inferInstanceAs (Decidable (∀ task ∈ system.tasks, _))

def Enters (task : Task Site Stmt) : Prop := ¬outline.Inside task.code ∧ outline.Inside task.code.tail

instance [DecidableEq Phase] (task : Task Site Stmt) : Decidable (outline.Enters task) :=
  inferInstanceAs (Decidable (_ ∧ _))

/-- The section of task `k` is assertion by assertion what `Holds` says, nobody else is
inside, and `Holds out` is what the sections leave to each other. -/
structure Guarded (Holds : Phase → Site → Memory → Prop) (system : System Memory Site Stmt) : Prop where
  holds : ∀ k task, system.At k task → outline.Inside task.code →
    Holds (outline.phase task.code) task.site system.memory
  only : ∀ j k task other, system.At k task → system.At j other → outline.Inside task.code →
    outline.Inside other.code → j = k
  rest : outline.Clear system → ∀ site, Holds outline.out site system.memory

variable {outline} {Holds : Phase → Site → Memory → Prop}

/-- A statement of a section leads to the assertion of the next one. -/
def Turn (outline : Outline Stmt Phase) (Holds : Phase → Site → Memory → Prop) (site : Site)
    (after : Memory) (code : List Stmt) (new : List (Task Site Stmt)) : Prop :=
  (∀ launched ∈ new, ¬outline.Inside launched.code) ∧ Holds (outline.phase code) site after

def Passes (outline : Outline Stmt Phase) (Holds : Phase → Site → Memory → Prop)
    (before after : Memory) (code : List Stmt) (new : List (Task Site Stmt)) : Prop :=
  (∀ launched ∈ new, ¬outline.Inside launched.code) ∧ ¬outline.Inside code ∧
    ∀ phase site, Holds phase site before → Holds phase site after

section
variable {system : System Memory Site Stmt} {k : Nat} {task : Task Site Stmt}

theorem Guarded.assertion (guarded : outline.Guarded Holds system) (here : system.At k task)
    (alone : ∀ j other, system.At j other → outline.Inside other.code → j = k) :
    Holds (outline.phase task.code) task.site system.memory := by
  by_cases inside : outline.Inside task.code
  · exact guarded.holds k task here inside
  · rw [not_not.mp inside]
    apply guarded.rest
    intro other among within
    obtain ⟨j, there⟩ := System.exists_at among
    obtain rfl := alone j other there within
    exact inside (Option.some.inj (there.symm.trans here) ▸ within)

theorem Guarded.turn (free : ∀ site other memory, Holds outline.out site memory → Holds outline.out other memory)
    (here : system.At k task)
    (alone : ∀ j other, system.At j other → outline.Inside other.code → j = k) {after : Memory}
    {code : List Stmt} {new : List (Task Site Stmt)} (turn : outline.Turn Holds task.site after code new) :
    outline.Guarded Holds (system.replace k task after code new) := by
  obtain ⟨launched, leads⟩ := turn
  -- nobody was inside but this task
  have only : ∀ j other, (system.replace k task after code new).At j other → outline.Inside other.code →
      j = k ∧ other = { task with code := code } := by
    intro j other there within
    rcases System.at_replace there with same | ⟨distinct, there⟩ | among
    · exact same
    · exact absurd (alone j other there within) distinct
    · exact absurd within (launched other among)
  constructor
  · intro j other there within
    obtain ⟨-, rfl⟩ := only j other there within
    exact leads
  · intro i j other third there elsewhere within also
    exact (only i third elsewhere also).1.trans (only j other there within).1.symm
  · intro clear site
    have out := not_not.mp (clear _ (System.at_replace_self here after code new).mem)
    exact free task.site site after (out ▸ leads)

theorem Guarded.passes (guarded : outline.Guarded Holds system) (here : system.At k task)
    (outside : ¬outline.Inside task.code) {after : Memory} {code : List Stmt} {new : List (Task Site Stmt)}
    (passes : outline.Passes Holds system.memory after code new) :
    outline.Guarded Holds (system.replace k task after code new) := by
  obtain ⟨launched, still, keeps⟩ := passes
  -- who is inside was inside before
  have unmoved : ∀ j other, (system.replace k task after code new).At j other → outline.Inside other.code →
      system.At j other := by
    intro j other there within
    rcases System.at_replace there with ⟨-, rfl⟩ | ⟨-, there⟩ | among
    · exact absurd within still
    · exact there
    · exact absurd within (launched other among)
  constructor
  · intro j other there within
    exact keeps _ _ (guarded.holds j other (unmoved j other there within) within)
  · intro i j other third there elsewhere within also
    exact guarded.only i j other third (unmoved j other there within) (unmoved i third elsewhere also) within also
  · intro clear site
    apply keeps
    apply guarded.rest
    intro other among within
    obtain ⟨j, there⟩ := System.exists_at among
    by_cases same : j = k
    · subst same
      exact outside (Option.some.inj (there.symm.trans here) ▸ within)
    · exact clear other (System.at_replace_of_ne same there after code new).mem within

theorem Guarded.somewhere (guarded : outline.Guarded Holds system) (site : Site) :
    ∃ phase owner, Holds phase owner system.memory := by
  by_cases clear : outline.Clear system
  · exact ⟨_, site, guarded.rest clear site⟩
  · simp only [Clear, not_forall, not_not] at clear
    obtain ⟨task, among, inside⟩ := clear
    obtain ⟨k, here⟩ := System.exists_at among
    exact ⟨_, _, guarded.holds k task here inside⟩

theorem Guarded.spawn (guarded : outline.Guarded Holds system) (outside : ¬outline.Inside task.code) :
    outline.Guarded Holds (system.spawn task) := by
  have unmoved : ∀ j other, (system.spawn task).At j other → outline.Inside other.code → system.At j other := by
    intro j other there within
    rcases System.at_spawn there with there | ⟨-, rfl⟩
    · exact there
    · exact absurd within outside
  constructor
  · intro j other there within
    exact guarded.holds j other (unmoved j other there within) within
  · intro i j other third there elsewhere within also
    exact guarded.only i j other third (unmoved j other there within) (unmoved i third elsewhere also) within also
  · intro clear site
    apply guarded.rest
    intro other among
    exact clear other (List.mem_append_left _ among)

theorem Guarded.memory (guarded : outline.Guarded Holds system) {after : Memory}
    (keeps : ∀ phase site, Holds phase site system.memory → Holds phase site after) :
    outline.Guarded Holds { system with memory := after } where
  holds j other there within := keeps _ _ (guarded.holds j other there within)
  only := guarded.only
  rest clear site := keeps _ _ (guarded.rest clear site)

end

/-- A statement keeps the sections if a task enters alone, and the statement does its part. -/
theorem Guarded.leads {system : System Memory Site Stmt} {k : Nat} {task : Task Site Stmt} {stmt : Stmt}
    {rest : List Stmt} (guarded : outline.Guarded Holds system) (outcome : Outcome Memory Site Stmt)
    (free : ∀ site other memory, Holds outline.out site memory → Holds outline.out other memory)
    (here : system.At k task) (code : task.code = stmt :: rest)
    (alone : outline.Enters task → outline.Clear system)
    (turn : outline.Inside (stmt :: rest) ∨ outline.Inside rest →
      Holds (outline.phase (stmt :: rest)) task.site system.memory →
        outcome.Leads system.memory rest task.handler (outline.Turn Holds task.site))
    (passes : ¬outline.Inside (stmt :: rest) → ¬outline.Inside rest →
      outcome.Leads system.memory rest task.handler (outline.Passes Holds system.memory)) :
    outcome.Leads system.memory rest task.handler fun after code new =>
      (∀ launched ∈ new, ¬outline.Inside launched.code) ∧
        outline.Guarded Holds (system.replace k task after code new) := by
  by_cases within : outline.Inside (stmt :: rest) ∨ outline.Inside rest
  · have others : ∀ j other, system.At j other → outline.Inside other.code → j = k := by
      intro j other there inside
      by_cases holder : outline.Inside task.code
      · exact guarded.only j k task other here there holder inside
      · have enters : outline.Enters task := ⟨holder, by rw [code] at holder ⊢; exact within.resolve_left holder⟩
        exact absurd inside (alone enters other there.mem)
    have holds := guarded.assertion here others
    rw [code] at holds
    exact (turn within holds).mono fun after code new turn => ⟨turn.1, Guarded.turn free here others turn⟩
  · rw [not_or] at within
    exact (passes within.1 within.2).mono fun after later new passes =>
      ⟨passes.1, guarded.passes here (code ▸ within.1) passes⟩

end Outline

end ThrottleVpn.Foundation
