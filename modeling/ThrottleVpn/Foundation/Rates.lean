import Mathlib.Data.Int.Init
import Mathlib.Tactic.Linarith
import Mathlib.Tactic.Ring

/-! Amounts earned at an integer rate, rounded down.

`earned rate per span` is what `rate` units each `per` ticks amount to after
`span` ticks; `spent rate per amount` is the time an amount took, also rounded
down. Converting an amount back to time never loses more than it earned.
-/

set_option autoImplicit false

namespace ThrottleVpn.Foundation

def earned (rate per span : Int) : Int := span * rate / per

def spent (rate per amount : Int) : Int := amount * per / rate

section
variable {rate per : Int} (ratePos : 0 < rate) (perPos : 0 < per)
include ratePos perPos

theorem earned_nonneg {span : Int} (nonneg : 0 ≤ span) : 0 ≤ earned rate per span :=
  Int.ediv_nonneg (Int.mul_nonneg nonneg ratePos.le) perPos.le

theorem earned_mono {first second : Int} (le : first ≤ second) :
    earned rate per first ≤ earned rate per second :=
  Int.ediv_le_ediv perPos (Int.mul_le_mul_of_nonneg_right le ratePos.le)

theorem spent_earned_le (span : Int) : spent rate per (earned rate per span) ≤ span := by
  apply Int.ediv_le_of_le_mul ratePos
  exact Int.ediv_mul_le _ perPos.ne'

omit perPos in
theorem amount_le_spent (amount : Int) : amount * per ≤ rate * (spent rate per amount + 1) := by
  have below := Int.lt_ediv_add_one_mul_self (amount * per) ratePos
  unfold spent
  rw [Int.mul_comm rate]
  omega

theorem spent_nonneg {amount : Int} (nonneg : 0 ≤ amount) : 0 ≤ spent rate per amount :=
  Int.ediv_nonneg (Int.mul_nonneg nonneg perPos.le) ratePos.le

/-- Crediting an amount and moving the clock forward by the time it took never
loses any later credit. -/
theorem earned_le_credit (span amount : Int) :
    earned rate per span ≤ amount + earned rate per (span - spent rate per amount) := by
  have back : spent rate per amount * rate ≤ amount * per := Int.ediv_mul_le _ ratePos.ne'
  have total : span * rate ≤ amount * per + (span - spent rate per amount) * rate := by
    linarith [Int.sub_mul span (spent rate per amount) rate]
  calc span * rate / per ≤ (amount * per + (span - spent rate per amount) * rate) / per :=
        Int.ediv_le_ediv perPos total
    _ = amount + (span - spent rate per amount) * rate / per := by
        rw [Int.add_comm, Int.add_mul_ediv_right _ _ perPos.ne', Int.add_comm]

end

end ThrottleVpn.Foundation
