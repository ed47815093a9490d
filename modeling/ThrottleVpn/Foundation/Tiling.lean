import Mathlib.Algebra.Ring.Nat
import Mathlib.Data.List.Basic

/-! Pieces of a stream laid end to end.

A piece carries the position it claims to start at. Positions may wrap around;
all that is used of them is how they advance by a number of elements.
-/

set_option autoImplicit false

namespace ThrottleVpn.Foundation

variable {Pos α : Type}

/-- The pieces, in order, are the whole of the data, and each starts at the
position reached by the pieces before it. -/
def Tiles (advance : Pos → Nat → Pos) : Pos → List (Pos × List α) → List α → Prop
  | _, [], data => data = []
  | start, (position, piece) :: rest, data => position = start ∧ piece <+: data ∧
      Tiles advance (advance start piece.length) rest (data.drop piece.length)

section
variable {advance : Pos → Nat → Pos}

theorem Tiles.nonempty (zero : ∀ start, advance start 0 = start) {start : Pos}
    {pieces : List (Pos × List α)} {data : List α} (tiles : Tiles advance start pieces data) :
    Tiles advance start (pieces.filter fun piece => !piece.2.isEmpty) data := by
  induction pieces generalizing start data with
  | nil => exact tiles
  | cons piece rest ih =>
    obtain ⟨here, inside, tiled⟩ := tiles
    cases content : piece.2 with
    | nil =>
      rw [List.filter_cons_of_neg (by simp [content])]
      rw [content, List.length_nil, zero, List.drop_zero] at tiled
      exact ih tiled
    | cons head tail =>
      rw [List.filter_cons_of_pos (by simp [content])]
      exact ⟨here, inside, ih tiled⟩

theorem Tiles.sum_length {start : Pos} {pieces : List (Pos × List α)} {data : List α}
    (tiles : Tiles advance start pieces data) : (pieces.map fun piece => piece.2.length).sum = data.length := by
  induction pieces generalizing start data with
  | nil =>
    obtain rfl : data = [] := tiles
    rfl
  | cons piece rest ih =>
    obtain ⟨-, inside, tiled⟩ := tiles
    have later := ih tiled
    have fits := inside.length_le
    rw [List.length_drop] at later
    rw [List.map_cons, List.sum_cons, later]
    omega

theorem tiles_append (zero : ∀ start, advance start 0 = start)
    (add : ∀ start m n, advance (advance start m) n = advance start (m + n))
    {start : Pos} {first second : List (Pos × List α)} {left right : List α}
    (head : Tiles advance start first left) (tail : Tiles advance (advance start left.length) second right) :
    Tiles advance start (first ++ second) (left ++ right) := by
  induction first generalizing start left with
  | nil =>
    obtain rfl : left = [] := head
    simpa [zero] using tail
  | cons piece rest ih =>
    obtain ⟨here, ⟨others, split⟩, tiled⟩ := head
    subst split
    rw [List.drop_left] at tiled
    refine ⟨here, ⟨others ++ right, by simp⟩, ?_⟩
    rw [List.append_assoc, List.drop_left]
    refine ih tiled ?_
    rwa [add, ← List.length_append]

end

theorem append_prefix {before piece stream : List α} (start : before <+: stream)
    (next : piece <+: stream.drop before.length) : before ++ piece <+: stream := by
  obtain ⟨rest, rfl⟩ := start
  rw [List.drop_left] at next
  exact (List.prefix_append_right_inj before).mpr next

/-- Ranges, each given by where it starts and where it ends, lead from one position
to another. -/
def Chains : Pos → Pos → List (Pos × Pos) → Prop
  | start, final, [] => start = final
  | start, final, range :: rest => range.1 = start ∧ Chains range.2 final rest

theorem chains_append {start middle final : Pos} {first second : List (Pos × Pos)}
    (head : Chains start middle first) (tail : Chains middle final second) :
    Chains start final (first ++ second) := by
  induction first generalizing start with
  | nil =>
    obtain rfl : start = middle := head
    exact tail
  | cons range rest ih => exact ⟨head.1, ih head.2⟩

theorem Chains.filter {ι : Type} {ends : ι → Pos × Pos} {keep : ι → Bool} {start final : Pos}
    {ranges : List ι} (chains : Chains start final (ranges.map ends))
    (empty : ∀ range ∈ ranges, keep range = false → (ends range).2 = (ends range).1) :
    Chains start final ((ranges.filter keep).map ends) := by
  induction ranges generalizing start with
  | nil => exact chains
  | cons range rest ih =>
    obtain ⟨here, further⟩ := chains
    have emptyRest : ∀ other ∈ rest, keep other = false → (ends other).2 = (ends other).1 :=
      fun other member => empty other (List.mem_cons_of_mem _ member)
    cases kept : keep range with
    | true =>
      rw [List.filter_cons_of_pos kept]
      exact ⟨here, ih further emptyRest⟩
    | false =>
      rw [List.filter_cons_of_neg (by simp [kept])]
      rw [empty range List.mem_cons_self kept, here] at further
      exact ih further emptyRest

end ThrottleVpn.Foundation
