import ThrottleVpn.Limiter.RateLimiter

/-! When the compiled refill is the exact one.

The product of the idle time and the rate is the only operation of the refill
that can leave 64 bits in a well-formed bucket. At the start-up rate of
10^9 bytes per second it does so after about 9.2 idle seconds, and the refill
then credits nothing at all until the product has wrapped around.
-/

set_option autoImplicit false

namespace ThrottleVpn.Limiter.RateLimiter

open Foundation

/-- What init and update establish and every operation keeps for a capped bucket. -/
structure WellFormed (limiter : RateLimiter) : Prop where
  ratePos : 0 < limiter.ratePerSec
  rateFits : Fits limiter.ratePerSec
  capacityEq : limiter.capacity = burst limiter.ratePerSec
  tokensLe : limiter.tokens ≤ limiter.capacity
  tokensFits : Fits limiter.tokens
  lastFits : Fits limiter.lastRefillNs

/-- Every 64-bit operation the refill executes has a representable result. -/
def NoOverflow (limiter : RateLimiter) (now : Int) : Prop :=
  let elapsed := now - limiter.lastRefillNs
  Fits elapsed ∧ (0 < elapsed → 0 < limiter.ratePerSec →
    let added := (elapsed * limiter.ratePerSec).tdiv 1000000000
    Fits (elapsed * limiter.ratePerSec) ∧ (0 < added →
      Fits (limiter.tokens + added) ∧ (limiter.tokens + added < limiter.capacity →
        Fits (added * 1000000000) ∧
        Fits (limiter.lastRefillNs + (added * 1000000000).tdiv limiter.ratePerSec))))

theorem refill_wrap_of_noOverflow {limiter : RateLimiter} {now : Int}
    (exact : limiter.NoOverflow now) : limiter.refill wrap now = limiter.refill id now := by
  obtain ⟨elapsedFits, busy⟩ := exact
  unfold refill
  simp only [id, wrap_of_fits elapsedFits]
  split
  next positive =>
    obtain ⟨productFits, credited⟩ := busy positive.1 positive.2
    simp only [wrap_of_fits productFits]
    split
    next some =>
      obtain ⟨tokensFits, room⟩ := credited some
      simp only [wrap_of_fits tokensFits]
      split
      next full => rfl
      next below =>
        obtain ⟨backFits, lastFits⟩ := room (by omega)
        simp only [wrap_of_fits backFits, wrap_of_fits lastFits]
    next none => rfl
  next idle => rfl

section
variable {limiter : RateLimiter} {now : Int} (formed : limiter.WellFormed)
  (started : limiter.lastRefillNs ≤ now)
include formed started

theorem noOverflow_of_product (nowFits : Fits now)
    (small : (now - limiter.lastRefillNs) * limiter.ratePerSec < 2 ^ 63) :
    limiter.NoOverflow now := by
  have elapsedNonneg : 0 ≤ now - limiter.lastRefillNs := by omega
  have ratePos := formed.ratePos
  have elapsedLe : now - limiter.lastRefillNs ≤ (now - limiter.lastRefillNs) * limiter.ratePerSec :=
    le_mul_of_one_le_right elapsedNonneg ratePos
  refine ⟨fits_of_nonneg elapsedNonneg elapsedLe small, fun busy _ => ?_⟩
  have productNonneg : 0 ≤ (now - limiter.lastRefillNs) * limiter.ratePerSec := by omega
  have added := Int.tdiv_eq_ediv_of_nonneg (b := 1000000000) productNonneg
  have took := spent_earned_le ratePos (show (0 : Int) < 1000000000 by decide)
    (now - limiter.lastRefillNs)
  have capacityEq := formed.capacityEq
  rw [burst_eq_max ratePos.le] at capacityEq
  obtain ⟨-, rateHigh⟩ := formed.rateFits
  obtain ⟨tokensLow, -⟩ := formed.tokensFits
  have tokensLe := formed.tokensLe
  refine ⟨fits_of_nonneg productNonneg le_rfl small, fun some => ⟨⟨?_, ?_⟩, fun room => ⟨⟨?_, ?_⟩, ?_⟩⟩⟩
  · omega
  · omega
  · omega
  · omega
  · have back := Int.tdiv_eq_ediv_of_nonneg (b := limiter.ratePerSec) (show 0 ≤
      ((now - limiter.lastRefillNs) * limiter.ratePerSec).tdiv 1000000000 * 1000000000 by omega)
    have backNonneg := spent_nonneg ratePos (show (0 : Int) < 1000000000 by decide)
      (earned_nonneg ratePos (show (0 : Int) < 1000000000 by decide) elapsedNonneg)
    unfold spent earned at took backNonneg
    obtain ⟨lastLow, -⟩ := formed.lastFits
    obtain ⟨-, nowHigh⟩ := nowFits
    rw [back, added]
    constructor <;> omega

theorem noOverflow_iff (nowFits : Fits now) :
    limiter.NoOverflow now ↔ (now - limiter.lastRefillNs) * limiter.ratePerSec < 2 ^ 63 := by
  constructor
  · rintro ⟨-, busy⟩
    by_cases idle : now - limiter.lastRefillNs = 0
    · simp [idle]
    · exact (busy (by omega) formed.ratePos).1.2
  · exact noOverflow_of_product formed started nowFits

end

def exactTokens (limiter : RateLimiter) (now : Int) : Int :=
  min limiter.capacity
    (limiter.tokens + (now - limiter.lastRefillNs) * limiter.ratePerSec / 1000000000)

/-- What idle time owes the bucket at a clock reading. -/
structure RefillsExactly (limiter : RateLimiter) (now : Int) : Prop where
  noOverflow : limiter.NoOverflow now
  available : (limiter.available wrap now).2 = limiter.exactTokens now
  consume : ∀ bytes isSmall, (limiter.consume wrap now bytes isSmall).1.tokens =
    wrap (limiter.exactTokens now - cost bytes isSmall)
  monotone : ∀ earlier, limiter.lastRefillNs ≤ earlier → earlier ≤ now →
    (limiter.available wrap earlier).2 ≤ (limiter.available wrap now).2
  full : (limiter.capacity - limiter.tokens) * 1000000000 ≤
      (now - limiter.lastRefillNs) * limiter.ratePerSec →
    (limiter.available wrap now).2 = limiter.capacity

theorem available_eq_exactTokens {limiter : RateLimiter} {now : Int} (formed : limiter.WellFormed)
    (started : limiter.lastRefillNs ≤ now) (nowFits : Fits now)
    (small : (now - limiter.lastRefillNs) * limiter.ratePerSec < 2 ^ 63) :
    (limiter.available wrap now).2 = limiter.exactTokens now := by
  unfold available
  rw [refill_wrap_of_noOverflow (noOverflow_of_product formed started nowFits small)]
  exact refill_tokens formed.ratePos formed.tokensLe started

/-- For every capped bucket and every later clock reading, the compiled refill
is the exact one if and only if the idle time is below 2^63 / rate nanoseconds. -/
theorem refill_exact_iff_idle_product_fits (limiter : RateLimiter) (now : Int)
    (formed : limiter.WellFormed) (started : limiter.lastRefillNs ≤ now) (nowFits : Fits now) :
    limiter.RefillsExactly now ↔
      (now - limiter.lastRefillNs) * limiter.ratePerSec < 2 ^ 63 := by
  constructor
  · exact fun exact => (noOverflow_iff formed started nowFits).mp exact.noOverflow
  · intro small
    have atNow := available_eq_exactTokens formed started nowFits small
    have ratePos := formed.ratePos
    refine ⟨(noOverflow_iff formed started nowFits).mpr small, atNow, ?_, ?_, ?_⟩
    · intro bytes isSmall
      exact congrArg (fun tokens => wrap (tokens - cost bytes isSmall)) atNow
    · intro earlier later before
      have products : (earlier - limiter.lastRefillNs) * limiter.ratePerSec ≤
          (now - limiter.lastRefillNs) * limiter.ratePerSec :=
        Int.mul_le_mul_of_nonneg_right (by omega) ratePos.le
      obtain ⟨lastLow, -⟩ := formed.lastFits
      have earlierFits : Fits earlier := ⟨by omega, lt_of_le_of_lt before nowFits.2⟩
      rw [atNow, available_eq_exactTokens formed later earlierFits (by omega)]
      have quotients := Int.ediv_le_ediv (show (0 : Int) < 1000000000 by decide) products
      unfold exactTokens
      omega
    · intro idle
      rw [atNow]
      unfold exactTokens
      omega

theorem refill_exact_iff_idle_product_fits_nine_seconds :
    let drained : RateLimiter := ⟨0, 20000000, 1000000000, 0⟩
    drained.RefillsExactly 9000000000 := by
  intro drained
  have formed : drained.WellFormed := by
    refine ⟨?_, ?_, ?_, ?_, ?_, ?_⟩ <;> decide
  exact (refill_exact_iff_idle_product_fits drained 9000000000 formed (by decide) (by decide)).mpr
    (by decide)

/-- Ten idle seconds at the start-up rate: an empty bucket still reports nothing,
where the exact refill would have filled it five hundred times over. -/
theorem refill_starves_after_ten_seconds :
    let drained : RateLimiter := ⟨0, burst 1000000000, 1000000000, 0⟩
    (drained.available wrap 10000000000).2 = 0 ∧ drained.exactTokens 10000000000 = 20000000 ∧
      ¬ drained.RefillsExactly 10000000000 := by
  intro drained
  have reported : (drained.available wrap 10000000000).2 = 0 := by decide
  have owed : drained.exactTokens 10000000000 = 20000000 := by decide
  refine ⟨reported, owed, fun exact => ?_⟩
  have same := exact.available
  rw [reported, owed] at same
  exact absurd same (by decide)

end ThrottleVpn.Limiter.RateLimiter
