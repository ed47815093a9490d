import ThrottleVpn.Foundation.Runs

/-! Labelled transitions, and programs that do what a more abstract system may do.

A program is a deterministic step function; what it shows of a step is a label. It
refines a transition system when, in every state that keeps an invariant, each of
its steps is a move of the system between the views of the two states.
-/

set_option autoImplicit false

namespace ThrottleVpn.Foundation

variable {State Input Abstract Label Mark : Type}

def trace (step : State → Input → State) (label : State → Input → Label) :
    State → List Input → List Label
  | _, [] => []
  | state, input :: rest => label state input :: trace step label (step state input) rest

section
variable {step : State → Input → State} {label : State → Input → Label}

theorem trace_append (state : State) (first second : List Input) :
    trace step label state (first ++ second) =
      trace step label state first ++ trace step label (first.foldl step state) second := by
  induction first generalizing state with
  | nil => rfl
  | cons input rest ih =>
    simp only [List.cons_append, trace, ih, List.foldl_cons]

theorem trace_const (given : Input → Label) (state : State) (inputs : List Input) :
    trace step (fun _ input => given input) state inputs = inputs.map given := by
  induction inputs generalizing state with
  | nil => rfl
  | cons input rest ih => rw [trace, ih, List.map_cons]

theorem Admits.trace_congr {allowed : State → Input → Prop} {other : State → Input → Label} (Holds : State → Prop)
    (preserved : ∀ state input, Holds state → allowed state input → Holds (step state input))
    (agree : ∀ state input, Holds state → allowed state input → label state input = other state input)
    {state : State} {inputs : List Input} (admits : Admits step allowed state inputs) (initial : Holds state) :
    trace step label state inputs = trace step other state inputs := by
  induction inputs generalizing state with
  | nil => rfl
  | cons input rest ih =>
    rw [trace, trace, agree state input initial admits.1, ih admits.2 (preserved state input initial admits.1)]

end

abbrev Moves (Abstract Label : Type) := Abstract → Label → Abstract → Prop

inductive Moves.Path (moves : Moves Abstract Label) : Abstract → List Label → Abstract → Prop where
  | nil {here : Abstract} : Path moves here [] here
  | cons {here next final : Abstract} {label : Label} {rest : List Label} (move : moves here label next)
      (later : Path moves next rest final) : Path moves here (label :: rest) final

/-- The steps of a program are moves, as long as the invariant holds and the
environment keeps its promise. -/
structure Refines (step : State → Input → State) (allowed : State → Input → Prop)
    (label : State → Input → Label) (moves : Moves Abstract Label) (view : State → Abstract)
    (Holds : State → Prop) : Prop where
  preserved : ∀ state input, Holds state → allowed state input → Holds (step state input)
  moves : ∀ state input, Holds state → allowed state input →
    moves (view state) (label state input) (view (step state input))

namespace Refines
variable {step : State → Input → State} {allowed : State → Input → Prop} {label : State → Input → Label}
  {moves : Moves Abstract Label} {view : State → Abstract} {Holds : State → Prop}
  (refines : Refines step allowed label moves view Holds)
include refines

/-- Every allowed run is a path, step for step. -/
theorem path {state : State} {inputs : List Input} (admits : Admits step allowed state inputs)
    (initial : Holds state) :
    moves.Path (view state) (trace step label state inputs) (view (inputs.foldl step state)) := by
  induction inputs generalizing state with
  | nil => exact .nil
  | cons input rest ih =>
    have kept := refines.preserved state input initial admits.1
    exact .cons (refines.moves state input initial admits.1) (ih admits.2 kept)

end Refines

theorem view_foldl {step : State → Input → State} {coarse : Abstract → Input → Abstract}
    {view : State → Abstract} (Holds : State → Prop)
    (preserved : ∀ state input, Holds state → Holds (step state input))
    (commutes : ∀ state input, Holds state → view (step state input) = coarse (view state) input)
    {state : State} (initial : Holds state) (inputs : List Input) :
    view (inputs.foldl step state) = inputs.foldl coarse (view state) := by
  induction inputs generalizing state with
  | nil => rfl
  | cons input rest ih =>
    rw [List.foldl_cons, List.foldl_cons, ih (preserved state input initial), commutes state input initial]

theorem foldl_flatten_trace {big : State → Input → State} {small : Abstract → Mark → Abstract}
    {label : State → Input → List Mark} {view : State → Abstract}
    (expands : ∀ state input, view (big state input) = (label state input).foldl small (view state))
    (state : State) (inputs : List Input) :
    view (inputs.foldl big state) = (trace big label state inputs).flatten.foldl small (view state) := by
  induction inputs generalizing state with
  | nil => rfl
  | cons input rest ih =>
    rw [List.foldl_cons, ih, expands, trace, List.flatten_cons, List.foldl_append]

end ThrottleVpn.Foundation
