import ThrottleVpn.Limiter.Drift

/-! Whether `rate_limiter_available` only observes.

A refill that does not fill the bucket moves `last_refill_ns` by the time the
credited tokens took, rounded down. The time left on the clock can then be worth
another token, which the next call at the same reading credits.
-/

set_option autoImplicit false

namespace ThrottleVpn.Limiter.RateLimiter

open Foundation

def observed (limiter : RateLimiter) (now : Int) (count : Nat) : RateLimiter :=
  (fun limiter => (limiter.available id now).1)^[count] limiter

@[simp] theorem observed_zero (limiter : RateLimiter) (now : Int) : limiter.observed now 0 = limiter := rfl

@[simp] theorem observed_succ (limiter : RateLimiter) (now : Int) (count : Nat) :
    limiter.observed now (count + 1) = (limiter.observed now count).refill id now :=
  Function.iterate_succ_apply' ..

/-- The calls before it change neither the answer of `rate_limiter_consume` nor the
tokens it leaves, and a second refill adds none. -/
structure PurelyObserved (limiter : RateLimiter) (now : Int) : Prop where
  wait : ∀ count bytes isSmall, ((limiter.observed now count).consume id now bytes isSmall).2 =
    (limiter.consume id now bytes isSmall).2
  tokens : ∀ count bytes isSmall, ((limiter.observed now count).consume id now bytes isSmall).1.tokens =
    (limiter.consume id now bytes isSmall).1.tokens
  refill : ((limiter.refill id now).refill id now).tokens = (limiter.refill id now).tokens

/-- What a refill that does not fill the bucket leaves on the clock. -/
def leftover (limiter : RateLimiter) (now : Int) : Int :=
  now - limiter.lastRefillNs -
    spent limiter.ratePerSec 1000000000 (earned limiter.ratePerSec 1000000000 (now - limiter.lastRefillNs))

/-- No time passed, the bucket fills up, or the time left is worth less than a token. -/
def Settles (limiter : RateLimiter) (now : Int) : Prop :=
  now ≤ limiter.lastRefillNs ∨ limiter.capacity ≤ limiter.balance now ∨
    limiter.leftover now * limiter.ratePerSec < 1000000000

instance (limiter : RateLimiter) (now : Int) : Decidable (limiter.Settles now) :=
  inferInstanceAs (Decidable (_ ∨ _))

section
variable {limiter : RateLimiter} {now : Int} (ratePos : 0 < limiter.ratePerSec)
include ratePos

theorem earned_eq_zero_iff {span : Int} (nonneg : 0 ≤ span) :
    earned limiter.ratePerSec 1000000000 span = 0 ↔ span * limiter.ratePerSec < 1000000000 := by
  have product := Int.mul_nonneg nonneg ratePos.le
  unfold earned
  omega

theorem leftover_nonneg : 0 ≤ limiter.leftover now := by
  have took := spent_earned_le ratePos (show (0 : Int) < 1000000000 by decide) (now - limiter.lastRefillNs)
  unfold leftover
  omega

theorem refill_refill (started : limiter.lastRefillNs ≤ now) :
    (limiter.Settles now ∧ (limiter.refill id now).refill id now = limiter.refill id now) ∨
      (¬limiter.Settles now ∧
        (limiter.refill id now).tokens < ((limiter.refill id now).refill id now).tokens) := by
  have left := @leftover_nonneg _ now ratePos
  rcases refill_cases ratePos started with ⟨same, nothing⟩ | ⟨same, full⟩ | ⟨same, room⟩
  · left
    rw [same, same]
    refine ⟨.inr (.inr ?_), rfl⟩
    have none : earned limiter.ratePerSec 1000000000 (now - limiter.lastRefillNs) = 0 := by
      unfold balance at nothing
      omega
    rw [← earned_eq_zero_iff ratePos left]
    unfold leftover
    rw [none]
    simpa [spent] using none
  · left
    refine ⟨.inr (.inl full), ?_⟩
    -- the clock stands at the reading, so no time is left
    rw [same]
    unfold refill
    apply if_neg
    simp
  · -- the elapsed time of the second refill is what the first one left over
    have again := @refill_cases (limiter.refill id now) now (by simpa using ratePos)
      (refill_last_le ratePos started)
    have span : now - (limiter.refill id now).lastRefillNs = limiter.leftover now := by
      rw [same]
      unfold leftover
      simp only
      omega
    have worth : (limiter.refill id now).balance now =
        (limiter.refill id now).tokens + earned limiter.ratePerSec 1000000000 (limiter.leftover now) := by
      unfold balance
      rw [span, refill_ratePerSec]
    have below : (limiter.refill id now).tokens < limiter.capacity := by
      rw [same]
      exact room
    have gain := earned_nonneg ratePos (show (0 : Int) < 1000000000 by decide) left
    by_cases idle : earned limiter.ratePerSec 1000000000 (limiter.leftover now) = 0
    · left
      refine ⟨.inr (.inr ((earned_eq_zero_iff ratePos left).mp idle)), ?_⟩
      rw [refill_capacity] at again
      rcases again with ⟨rest, -⟩ | ⟨-, full⟩ | ⟨rest, -⟩
      · exact rest
      · omega
      · rw [rest, worth, span, refill_ratePerSec, idle]
        simp [spent, same]
    · right
      constructor
      · rintro (early | full | brief)
        · obtain rfl : now = limiter.lastRefillNs := by omega
          exact idle (by simp [leftover, earned, spent])
        · omega
        · exact idle ((earned_eq_zero_iff ratePos left).mpr brief)
      · rcases again with ⟨-, rest⟩ | ⟨rest, -⟩ | ⟨rest, -⟩
        · omega
        · rw [rest]
          simpa using below
        · rw [rest]
          simp only
          omega

/-- Reading `rate_limiter_available` first makes no difference to what
`rate_limiter_consume` answers and leaves, if and only if the bucket settles. -/
theorem purely_observed_iff : limiter.PurelyObserved now ↔ limiter.Settles now := by
  by_cases started : limiter.lastRefillNs ≤ now
  · rcases refill_refill ratePos started with ⟨settles, idle⟩ | ⟨unsettled, gains⟩
    · refine iff_of_true ?_ settles
      -- every further call finds the bucket as the first one left it
      have fixed : ∀ count, (limiter.observed now count).refill id now = limiter.refill id now := by
        intro count
        induction count with
        | zero => rfl
        | succ count ih => rw [observed_succ, ih, idle]
      refine ⟨fun count bytes isSmall => ?_, fun count bytes isSmall => ?_, by rw [idle]⟩
      · simp only [consume, fixed]
      · simp only [consume, fixed]
    · exact iff_of_false (fun pure => gains.ne pure.refill.symm) unsettled
  · refine iff_of_true ?_ (.inl (Int.not_le.mp started).le)
    have early := refill_early (Int.not_le.mp started)
    have fixed : ∀ count, limiter.observed now count = limiter := by
      intro count
      induction count with
      | zero => rfl
      | succ count ih => rw [observed_succ, ih, early]
    refine ⟨fun count bytes isSmall => ?_, fun count bytes isSmall => ?_, by rw [early, early]⟩
    · rw [fixed]
    · rw [fixed]

end

theorem purely_observed_iff_megabit :
    (⟨0, 2500, 125000, 0⟩ : RateLimiter).PurelyObserved 8001 ↔
      (⟨0, 2500, 125000, 0⟩ : RateLimiter).Settles 8001 :=
  purely_observed_iff (by decide)

/-- At 700000000 bytes per second seven nanoseconds earn four tokens, which took five
of them; the two that are left earn a fifth token. -/
theorem second_reading_adds_token :
    ¬(⟨0, 14000000, 700000000, 0⟩ : RateLimiter).PurelyObserved 7 := by
  intro pure
  exact absurd (pure.tokens 1 1500 false) (by decide)

end ThrottleVpn.Limiter.RateLimiter
