import Mathlib.Data.Int.ModEq
import Mathlib.Tactic.NormNum

/-! Signed 64-bit words as integers.

Arithmetic is carried out in the integers and every stored result passes through
a storage rule: `wrap` for a two's-complement word, `id` for exact arithmetic.
The two agree on the values that fit.
-/

set_option autoImplicit false

namespace ThrottleVpn.Foundation

def Fits (x : Int) : Prop := -2 ^ 63 ≤ x ∧ x < 2 ^ 63

instance (x : Int) : Decidable (Fits x) := inferInstanceAs (Decidable (_ ∧ _))

/-- What a signed 64-bit word holds after `x` was stored in it. -/
def wrap (x : Int) : Int := x.bmod (2 ^ 64)

theorem wrap_fits (x : Int) : Fits (wrap x) := by
  unfold Fits wrap
  have low := @Int.le_bmod x (2 ^ 64) (by norm_num)
  have high := @Int.bmod_lt x (2 ^ 64) (by norm_num)
  constructor <;> omega

theorem wrap_of_fits {x : Int} (fits : Fits x) : wrap x = x := by
  obtain ⟨low, high⟩ := fits
  exact Int.bmod_eq_of_le (by omega) (by omega)

theorem wrap_wrap_sub (x y : Int) : wrap (wrap x - y) = wrap (x - y) := Int.bmod_sub_bmod

theorem wrap_wrap_add (x y : Int) : wrap (wrap x + y) = wrap (x + y) := Int.bmod_add_bmod

theorem fits_of_nonneg {x bound : Int} (low : 0 ≤ x) (le : x ≤ bound) (high : bound < 2 ^ 63) :
    Fits x := ⟨by omega, by omega⟩

theorem wrap_le {x : Int} (nonneg : 0 ≤ x) : wrap x ≤ x := by
  have split := Int.mul_ediv_add_emod x (2 ^ 64)
  have turns := Int.ediv_nonneg nonneg (show (0 : Int) ≤ 2 ^ 64 by norm_num)
  unfold wrap Int.bmod
  norm_num at *
  split <;> omega

end ThrottleVpn.Foundation
