import Mathlib.Data.List.Basic

/-! Runs of a deterministic step function and histories of what it did.

Everything a step does not decide itself (arrivals, answers of the operating
system, clock readings) is part of its input, so a run is a fold over the inputs
it was given. Assumptions on the environment are a relation between a state and
the input that arrives in it.
-/

set_option autoImplicit false

namespace ThrottleVpn.Foundation

variable {State Input Entry : Type}

/-- Every input is allowed in the state in which it arrives. -/
def Admits (step : State → Input → State) (allowed : State → Input → Prop) :
    State → List Input → Prop
  | _, [] => True
  | state, input :: rest => allowed state input ∧ Admits step allowed (step state input) rest

instance Admits.decidable (step : State → Input → State) (allowed : State → Input → Prop)
    [∀ state input, Decidable (allowed state input)] :
    (state : State) → (inputs : List Input) → Decidable (Admits step allowed state inputs)
  | _, [] => isTrue trivial
  | state, input :: rest =>
    have := Admits.decidable step allowed (step state input) rest
    inferInstanceAs (Decidable (allowed state input ∧ _))

section
variable {step : State → Input → State} {allowed : State → Input → Prop}

theorem admits_append {state : State} {first second : List Input} :
    Admits step allowed state (first ++ second) ↔
      Admits step allowed state first ∧ Admits step allowed (first.foldl step state) second := by
  induction first generalizing state with
  | nil => simp [Admits]
  | cons input rest ih => simp only [List.cons_append, Admits, ih, List.foldl_cons, and_assoc]

theorem admits_of_forall {state : State} {inputs : List Input}
    (all : ∀ input ∈ inputs, ∀ state, allowed state input) : Admits step allowed state inputs := by
  induction inputs generalizing state with
  | nil => trivial
  | cons input rest ih =>
    rw [List.forall_mem_cons] at all
    exact ⟨all.1 state, ih all.2⟩

/-- A property kept by every step holds at the end of every run. -/
theorem run_invariant (Holds : State → Prop)
    (preserved : ∀ state input, Holds state → Holds (step state input)) {state : State}
    (initial : Holds state) (inputs : List Input) : Holds (inputs.foldl step state) := by
  induction inputs generalizing state with
  | nil => exact initial
  | cons input rest ih => exact ih (preserved _ _ initial)

theorem Admits.invariant (Holds : State → Prop)
    (preserved : ∀ state input, Holds state → allowed state input → Holds (step state input))
    {state : State} {inputs : List Input} (admits : Admits step allowed state inputs)
    (initial : Holds state) : Holds (inputs.foldl step state) := by
  induction inputs generalizing state with
  | nil => exact initial
  | cons input rest ih => exact ih admits.2 (preserved _ _ initial admits.1)

theorem admits_congr {other : State → Input → Prop} (Holds : State → Prop)
    (same : ∀ state input, Holds state → (allowed state input ↔ other state input))
    (preserved : ∀ state input, Holds state → other state input → Holds (step state input)) {state : State}
    (initial : Holds state) (inputs : List Input) :
    Admits step allowed state inputs ↔ Admits step other state inputs := by
  induction inputs generalizing state with
  | nil => exact Iff.rfl
  | cons input rest ih =>
    unfold Admits
    rw [same state input initial]
    exact and_congr_right fun met => ih (preserved state input initial met)

theorem forall_prefix_iff {Holds : State → Prop} {state : State} {inputs : List Input} :
    (∀ past, past <+: inputs → Holds (past.foldl step state)) ↔
      Holds state ∧ Admits step (fun state input => Holds (step state input)) state inputs := by
  induction inputs generalizing state with
  | nil => simp [Admits]
  | cons input rest ih =>
    constructor
    · intro all
      have tail := ih.mp fun past among => all (input :: past) (List.cons_prefix_cons.mpr ⟨rfl, among⟩)
      exact ⟨all [] (List.nil_prefix), tail⟩
    · rintro ⟨here, later⟩ past among
      cases past with
      | nil => exact here
      | cons first past =>
        obtain ⟨rfl, tail⟩ := List.cons_prefix_cons.mp among
        exact ih.mpr later past tail

theorem foldl_untouched {Key Value : Type} {apply : (Key → Value) → Entry → Key → Value}
    {touched : Entry → Option Key} {key : Key}
    (frame : ∀ values entry, touched entry ≠ some key → apply values entry key = values key) {values : Key → Value}
    {entries : List Entry} (others : ∀ entry ∈ entries, touched entry ≠ some key) :
    entries.foldl apply values key = values key := by
  induction entries generalizing values with
  | nil => rfl
  | cons entry rest ih =>
    rw [List.forall_mem_cons] at others
    rw [List.foldl_cons, ih others.2, frame values entry others.1]

theorem Admits.history_invariant (Holds : List Input → State → Prop)
    (preserved : ∀ past state input, Holds past state → allowed state input →
      Holds (past ++ [input]) (step state input))
    {past inputs : List Input} {state : State} (admits : Admits step allowed state inputs)
    (initial : Holds past state) : Holds (past ++ inputs) (inputs.foldl step state) := by
  induction inputs generalizing past state with
  | nil => rwa [List.append_nil]
  | cons input rest ih =>
    rw [← List.singleton_append, ← List.append_assoc]
    exact ih admits.2 (preserved past state input initial admits.1)

/-- What an invariant says of each step, beside being kept by it, it says of each step
of a run. -/
theorem Admits.steps (Holds : State → Prop) {Good : State → Input → Prop}
    (preserved : ∀ state input, Holds state → allowed state input → Holds (step state input) ∧ Good state input)
    {state : State} {inputs : List Input} (admits : Admits step allowed state inputs) (initial : Holds state) :
    Holds (inputs.foldl step state) ∧
      ∀ past input future, inputs = past ++ input :: future → Good (past.foldl step state) input := by
  have run : ∀ inputs, Admits step allowed state inputs → Holds (inputs.foldl step state) := fun _ admits =>
    admits.invariant Holds (fun state input holds admitted => (preserved state input holds admitted).1) initial
  refine ⟨run inputs admits, ?_⟩
  rintro past input future rfl
  obtain ⟨before, now, -⟩ := admits_append.mp admits
  exact (preserved _ _ (run past before) now).2

end

/-- Each entry of a history is judged by the entries before it. -/
def Judged (good : List Entry → Entry → Prop) (history : List Entry) : Prop :=
  ∀ past entry future, history = past ++ entry :: future → good past entry

theorem judged_nil (good : List Entry → Entry → Prop) : Judged good [] := by
  intro past entry future same
  simp at same

theorem judged_concat {good : List Entry → Entry → Prop} {history : List Entry} {last : Entry} :
    Judged good (history ++ [last]) ↔ Judged good history ∧ good history last := by
  constructor
  · intro judged
    refine ⟨fun past entry future same => ?_, judged history last [] rfl⟩
    exact judged past entry (future ++ [last]) (by simp [same])
  · rintro ⟨judged, final⟩ past entry future same
    rcases List.eq_nil_or_concat future with rfl | ⟨middle, tail, rfl⟩
    · obtain ⟨rfl, ends⟩ := List.append_inj' same rfl
      obtain rfl : last = entry := by simpa using ends
      exact final
    · have split : history ++ [last] = (past ++ entry :: middle) ++ [tail] := by simpa using same
      exact judged past entry middle (List.append_inj' split rfl).1

def Extends (good : List Entry → Entry → Prop) : List Entry → List Entry → Prop
  | _, [] => True
  | past, entry :: rest => good past entry ∧ Extends good (past ++ [entry]) rest

theorem extends_append {good : List Entry → Entry → Prop} {past first second : List Entry} :
    Extends good past (first ++ second) ↔
      Extends good past first ∧ Extends good (past ++ first) second := by
  induction first generalizing past with
  | nil => simp [Extends]
  | cons entry rest ih =>
    simp only [List.cons_append, Extends, ih, and_assoc, List.append_assoc, List.nil_append]

theorem judged_append {good : List Entry → Entry → Prop} {history further : List Entry} :
    Judged good (history ++ further) ↔ Judged good history ∧ Extends good history further := by
  induction further generalizing history with
  | nil => simp [Extends]
  | cons entry rest ih =>
    rw [Extends, ← List.singleton_append, ← List.append_assoc, ih, judged_concat, and_assoc]

theorem judged_iff_extends {good : List Entry → Entry → Prop} {history : List Entry} :
    Judged good history ↔ Extends good [] history := by
  rw [← List.nil_append history, judged_append, List.nil_append]
  exact and_iff_right (judged_nil good)

instance Extends.decidable (good : List Entry → Entry → Prop) [∀ past entry, Decidable (good past entry)] :
    (past further : List Entry) → Decidable (Extends good past further)
  | _, [] => isTrue trivial
  | past, entry :: rest =>
    have := Extends.decidable good (past ++ [entry]) rest
    inferInstanceAs (Decidable (good past entry ∧ _))

instance (good : List Entry → Entry → Prop) [∀ past entry, Decidable (good past entry)]
    (history : List Entry) : Decidable (Judged good history) :=
  decidable_of_iff _ judged_iff_extends.symm

end ThrottleVpn.Foundation
