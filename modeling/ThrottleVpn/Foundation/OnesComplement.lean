import Mathlib.Algebra.BigOperators.Group.List.Basic
import Mathlib.Algebra.Ring.Nat

/-! One's-complement sums of 16-bit words.

Adding with end-around carry is addition modulo 65535 with two zeros: the sum is
zero only when every word is, and all ones otherwise. A checksum field that holds
the complement of the sum of the other words makes the whole sum all ones.
-/

set_option autoImplicit false

namespace ThrottleVpn.Foundation

def carryAdd (a b : Nat) : Nat := if a + b < 65536 then a + b else a + b - 65535

def onesSum (words : List Nat) : Nat := words.foldl carryAdd 0

/-- The 16-bit value that adding carries back in leaves of a plain sum. -/
def folded (total : Nat) : Nat := if total = 0 then 0 else (total - 1) % 65535 + 1

theorem folded_le (total : Nat) : folded total ≤ 65535 := by
  unfold folded
  split <;> omega

theorem folded_of_lt {total : Nat} (small : total < 65536) : folded total = total := by
  unfold folded
  split <;> omega

theorem folded_round (total : Nat) : folded (total % 65536 + total / 65536) = folded total := by
  unfold folded
  split <;> split <;> omega

theorem carryAdd_folded (total : Nat) {word : Nat} (small : word < 65536) :
    carryAdd (folded total) word = folded (total + word) := by
  unfold carryAdd folded
  split <;> split <;> split <;> omega

/-- The one's-complement sum is the plain sum with its carries added back in. -/
theorem onesSum_eq_folded {words : List Nat} (small : ∀ word ∈ words, word < 65536) :
    onesSum words = folded words.sum := by
  have run : ∀ total, words.foldl carryAdd (folded total) = folded (total + words.sum) := by
    induction words with
    | nil => intro total; rfl
    | cons word rest ih =>
      intro total
      rw [List.foldl_cons, carryAdd_folded total (small word (by simp)), List.sum_cons, ← Nat.add_assoc]
      exact ih (fun other member => small other (List.mem_cons_of_mem _ member)) _
  have whole := run 0
  rwa [Nat.zero_add] at whole

/-- The complement of a sum completes it to all ones. -/
theorem folded_complement (total : Nat) : folded (total + (65535 - folded total)) = 65535 := by
  unfold folded
  split <;> split <;> omega

/-- When the complement is zero, all ones in its place completes the sum as well. -/
theorem folded_all_ones {total : Nat} (zero : 65535 - folded total = 0) :
    folded (total + 65535) = 65535 := by
  unfold folded at *
  split at zero <;> split <;> omega

/-! ### Words of a byte string -/

/-- The 16-bit words in network order; an odd last byte is padded on the right. -/
def networkWords : List UInt8 → List Nat
  | high :: low :: rest => (256 * high.toNat + low.toNat) :: networkWords rest
  | [last] => [256 * last.toNat]
  | [] => []

theorem networkWords_lt (bytes : List UInt8) : ∀ word ∈ networkWords bytes, word < 65536 := by
  induction bytes using networkWords.induct with
  | case1 high low rest ih =>
    intro word member
    have highLt := high.toNat_lt
    have lowLt := low.toNat_lt
    rcases List.mem_cons.mp member with rfl | member
    · omega
    · exact ih word member
  | case2 last =>
    intro word member
    have lastLt := last.toNat_lt
    obtain rfl := List.mem_singleton.mp member
    omega
  | case3 => simp [networkWords]

theorem networkWords_append {first : List UInt8} (even : first.length % 2 = 0) (second : List UInt8) :
    networkWords (first ++ second) = networkWords first ++ networkWords second := by
  induction first using networkWords.induct with
  | case1 high low rest ih =>
    simp only [List.length_cons] at even
    simp only [List.cons_append, networkWords, ih (by omega)]
  | case2 last => simp at even
  | case3 => rfl

theorem sum_networkWords_le (bytes : List UInt8) :
    (networkWords bytes).sum ≤ 65535 * ((bytes.length + 1) / 2) := by
  induction bytes using networkWords.induct with
  | case1 high low rest ih =>
    have highLt := high.toNat_lt
    have lowLt := low.toNat_lt
    simp only [networkWords, List.sum_cons, List.length_cons]
    omega
  | case2 last =>
    have lastLt := last.toNat_lt
    simp only [networkWords, List.sum_cons, List.sum_nil, List.length_cons, List.length_nil]
    omega
  | case3 => simp [networkWords]

end ThrottleVpn.Foundation
