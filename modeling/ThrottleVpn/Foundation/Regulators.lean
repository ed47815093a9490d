import Mathlib.Tactic.Linarith
import ThrottleVpn.Foundation.Refinement

/-! Regulated runs: what is spent in a stretch of a run, against the time it takes.

A regulator values each state by a level below a ceiling. A step may spend what it
takes off the level, what the time it takes earns at a rate, and a fixed allowance for
rounding; and no step takes the level below a floor, or further below it than it was.
Then every stretch of every run spends at most the height from the floor to the
ceiling, the rate for its time, and its allowances.
-/

set_option autoImplicit false

namespace ThrottleVpn.Foundation

variable {State Input : Type}

structure Regulator (step : State → Input → State) (allowed : State → Input → Prop) (Holds : State → Prop)
    (time level : State → Int) (cost : State → Input → Int) (rate allowance floor ceiling : Int) : Prop where
  preserved : ∀ state input, Holds state → allowed state input → Holds (step state input)
  pays : ∀ state input, Holds state → allowed state input →
    level (step state input) + cost state input ≤
      level state + rate * (time (step state input) - time state) + allowance
  supported : ∀ state input, Holds state → allowed state input → min floor (level state) ≤ level (step state input)
  below : ∀ state, Holds state → level state ≤ ceiling
  height : floor ≤ ceiling

namespace Regulator
variable {step : State → Input → State} {allowed : State → Input → Prop} {Holds : State → Prop}
  {time level : State → Int} {cost : State → Input → Int} {rate allowance floor ceiling : Int}
  (regulator : Regulator step allowed Holds time level cost rate allowance floor ceiling)
include regulator

theorem run {state : State} {inputs : List Input} (admits : Admits step allowed state inputs)
    (initial : Holds state) :
    level (inputs.foldl step state) + (trace step cost state inputs).sum ≤
      level state + rate * (time (inputs.foldl step state) - time state) + allowance * inputs.length := by
  induction inputs generalizing state with
  | nil => simp [trace]
  | cons input rest ih =>
    have first := regulator.pays state input initial admits.1
    have later := ih admits.2 (regulator.preserved state input initial admits.1)
    rw [List.foldl_cons, trace, List.sum_cons, List.length_cons]
    push_cast
    linarith

theorem run_supported {state : State} {inputs : List Input} (admits : Admits step allowed state inputs)
    (initial : Holds state) : min floor (level state) ≤ level (inputs.foldl step state) := by
  induction inputs generalizing state with
  | nil => exact min_le_right _ _
  | cons input rest ih =>
    have first := regulator.supported state input initial admits.1
    have later := ih admits.2 (regulator.preserved state input initial admits.1)
    exact le_trans (le_min (min_le_left _ _) first) later

/-- What is spent, wherever the level was. -/
theorem spent {state : State} {inputs : List Input} (admits : Admits step allowed state inputs)
    (initial : Holds state) :
    (trace step cost state inputs).sum ≤
      ceiling - floor + rate * (time (inputs.foldl step state) - time state) + allowance * inputs.length := by
  have total := regulator.run admits initial
  have bottom := regulator.run_supported admits initial
  have top := regulator.below state initial
  have height := regulator.height
  -- the run began above the floor or below it
  rcases min_choice floor (level state) with same | same <;> rw [same] at bottom <;> linarith

end Regulator

end ThrottleVpn.Foundation
