import ThrottleVpn.Limiter.RateLimiter

/-! What a bucket is worth, in billionths of a byte.

The worth of a bucket at a clock reading counts its tokens and the time that was not
credited yet, to the nanosecond. A refill only turns time into tokens: it adds to the
worth no more than the nanosecond it rounds in favour of the bucket.
-/

set_option autoImplicit false

namespace ThrottleVpn.Limiter.RateLimiter

open Foundation

def worth (limiter : RateLimiter) (now : Int) : Int :=
  limiter.tokens * 1000000000 + limiter.ratePerSec * (now - limiter.lastRefillNs)

def ceiling (limiter : RateLimiter) : Int := (limiter.capacity + 1) * 1000000000 + limiter.ratePerSec

/-- What can be spent before time goes on: the worth, up to the cap that a refill makes. -/
def level (limiter : RateLimiter) (now : Int) : Int := min limiter.ceiling (limiter.worth now)

@[simp] theorem refill_ceiling (word : Int → Int) (limiter : RateLimiter) (now : Int) :
    (limiter.refill word now).ceiling = limiter.ceiling := by
  unfold ceiling
  rw [refill_capacity, refill_ratePerSec]

theorem worth_later (limiter : RateLimiter) (now later : Int) :
    limiter.worth later = limiter.worth now + limiter.ratePerSec * (later - now) := by
  unfold worth
  ring

theorem level_later {limiter : RateLimiter} (ratePos : 0 < limiter.ratePerSec) {now later : Int}
    (le : now ≤ later) :
    limiter.level later ≤ limiter.level now + limiter.ratePerSec * (later - now) := by
  have gained := limiter.worth_later now later
  have nonneg : 0 ≤ limiter.ratePerSec * (later - now) := Int.mul_nonneg ratePos.le (by omega)
  unfold level
  omega

section
variable {limiter : RateLimiter} {now : Int} (ratePos : 0 < limiter.ratePerSec)
  (tokensLe : limiter.tokens ≤ limiter.capacity) (started : limiter.lastRefillNs ≤ now)
include ratePos started

theorem refill_worth_le : (limiter.refill id now).worth now ≤ limiter.worth now + limiter.ratePerSec := by
  rcases refill_cases ratePos started with ⟨same, -⟩ | ⟨same, full⟩ | ⟨same, -⟩
  · rw [same]
    omega
  · have floor := Int.ediv_mul_le ((now - limiter.lastRefillNs) * limiter.ratePerSec)
      (show (1000000000 : Int) ≠ 0 by decide)
    rw [same]
    unfold balance earned at full
    unfold worth
    dsimp only
    rw [Int.mul_comm limiter.ratePerSec (now - limiter.lastRefillNs), Int.sub_self, Int.mul_zero]
    omega
  · have back := @amount_le_spent _ 1000000000 ratePos
      (earned limiter.ratePerSec 1000000000 (now - limiter.lastRefillNs))
    rw [same]
    unfold worth balance
    dsimp only
    linarith

include tokensLe in
theorem refill_worth_le_ceiling : (limiter.refill id now).worth now ≤ limiter.ceiling := by
  have floor := Int.lt_ediv_add_one_mul_self ((now - limiter.lastRefillNs) * limiter.ratePerSec)
    (show (0 : Int) < 1000000000 by decide)
  rcases refill_cases ratePos started with ⟨same, idle⟩ | ⟨same, -⟩ | ⟨same, room⟩
  · rw [same]
    unfold balance earned at idle
    unfold worth ceiling
    rw [Int.mul_comm limiter.ratePerSec (now - limiter.lastRefillNs)]
    omega
  · rw [same]
    unfold worth ceiling
    dsimp only
    rw [Int.sub_self, Int.mul_zero]
    omega
  · have back := @amount_le_spent _ 1000000000 ratePos
      (earned limiter.ratePerSec 1000000000 (now - limiter.lastRefillNs))
    rw [same]
    unfold worth ceiling
    dsimp only
    unfold earned at back
    have short : limiter.ratePerSec * (now - (limiter.lastRefillNs + spent limiter.ratePerSec 1000000000
        (earned limiter.ratePerSec 1000000000 (now - limiter.lastRefillNs)))) ≤
        1000000000 + limiter.ratePerSec := by
      unfold earned
      linarith
    omega

theorem refill_level_le : (limiter.refill id now).level now ≤ limiter.level now + limiter.ratePerSec := by
  have gained := refill_worth_le ratePos started
  unfold level
  rw [refill_ceiling]
  omega

/-- No time that was not credited is lost, up to a full bucket. -/
theorem refill_level_ge :
    min (limiter.capacity * 1000000000) (limiter.level now) ≤ (limiter.refill id now).level now := by
  unfold level
  rw [refill_ceiling]
  rcases refill_cases ratePos started with ⟨same, -⟩ | ⟨same, -⟩ | ⟨same, -⟩
  · rw [same]
    omega
  · rw [same]
    unfold worth ceiling
    dsimp only
    rw [Int.sub_self, Int.mul_zero]
    omega
  -- the time that is credited is rounded down, in favour of the bucket
  · have back := Int.ediv_mul_le (earned limiter.ratePerSec 1000000000 (now - limiter.lastRefillNs) * 1000000000)
      ratePos.ne'
    have gained : limiter.worth now ≤ (limiter.refill id now).worth now := by
      rw [same]
      unfold worth balance spent
      dsimp only
      linarith
    rw [same] at gained
    rw [same]
    omega

end

theorem charge_level {limiter : RateLimiter} {now cost : Int} (word : Int → Int)
    (low : limiter.worth now ≤ limiter.ceiling)
    (exact : (limiter.charge word cost).tokens = limiter.tokens - cost) :
    (limiter.charge word cost).level now ≤ limiter.level now - cost * 1000000000 := by
  have worth : (limiter.charge word cost).worth now = limiter.worth now - cost * 1000000000 := by
    unfold RateLimiter.worth
    rw [exact]
    change _ + limiter.ratePerSec * (now - limiter.lastRefillNs) = _
    ring
  unfold level
  rw [worth]
  omega

end ThrottleVpn.Limiter.RateLimiter
