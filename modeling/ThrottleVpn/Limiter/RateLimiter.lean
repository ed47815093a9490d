import ThrottleVpn.Foundation.Rates
import ThrottleVpn.Foundation.Words

/-! The token bucket of `rate_limiter.c`.

Every operation takes the clock reading it makes as an argument, and the storage
rule for 64-bit results: `wrap` is the compiled code, `id` the same code in exact
integers. The mutex is not modelled: each operation is atomic under it.
-/

set_option autoImplicit false

namespace ThrottleVpn.Limiter

open Foundation

structure RateLimiter where
  tokens : Int
  capacity : Int
  ratePerSec : Int
  lastRefillNs : Int
  deriving DecidableEq, Repr

namespace RateLimiter

/-- 20 ms of the rate, at least one MTU; the lines shared by init and update. -/
def burst (bytesPerSecond : Int) : Int :=
  let capacity := bytesPerSecond.tdiv 50
  if capacity < 1500 then 1500 else capacity

def init (bytesPerSecond now : Int) : RateLimiter where
  tokens := burst bytesPerSecond
  capacity := burst bytesPerSecond
  ratePerSec := bytesPerSecond
  lastRefillNs := now

def update (limiter : RateLimiter) (bytesPerSecond : Int) : RateLimiter where
  tokens := if burst bytesPerSecond < limiter.tokens then burst bytesPerSecond else limiter.tokens
  capacity := burst bytesPerSecond
  ratePerSec := bytesPerSecond
  lastRefillNs := limiter.lastRefillNs

/-- The refill block, written out twice in the source. -/
def refill (word : Int → Int) (limiter : RateLimiter) (now : Int) : RateLimiter :=
  let elapsed := word (now - limiter.lastRefillNs)
  if 0 < elapsed ∧ 0 < limiter.ratePerSec then
    let added := (word (elapsed * limiter.ratePerSec)).tdiv 1000000000
    if 0 < added then
      let tokens := word (limiter.tokens + added)
      if limiter.capacity ≤ tokens then
        { limiter with tokens := limiter.capacity, lastRefillNs := now }
      else
        { limiter with
          tokens := tokens
          lastRefillNs := word
            (limiter.lastRefillNs + (word (added * 1000000000)).tdiv limiter.ratePerSec) }
    else limiter
  else limiter

def available (word : Int → Int) (limiter : RateLimiter) (now : Int) : RateLimiter × Int :=
  (limiter.refill word now, (limiter.refill word now).tokens)

def cost (bytes : Int) (isSmall : Bool) : Int := if isSmall then bytes.tdiv 2 + 1 else bytes

/-- The value returned by `rate_limiter_consume` once the bucket was refilled:
nothing while tokens suffice or the wait stays under 2 ms, and never over 50 ms. -/
def advisedWait (word : Int → Int) (limiter : RateLimiter) (cost : Int) : Int :=
  if cost ≤ limiter.tokens then 0
  else
    let deficit := word (cost - limiter.tokens)
    let wait :=
      if 0 < limiter.ratePerSec then (word (deficit * 1000000)).tdiv limiter.ratePerSec else 0
    if wait < 2000 then 0 else if 50000 < wait then 50000 else wait

def charge (word : Int → Int) (limiter : RateLimiter) (cost : Int) : RateLimiter :=
  { limiter with tokens := word (limiter.tokens - cost) }

def consume (word : Int → Int) (limiter : RateLimiter) (now bytes : Int) (isSmall : Bool) :
    RateLimiter × Int :=
  let refilled := limiter.refill word now
  (refilled.charge word (cost bytes isSmall), refilled.advisedWait word (cost bytes isSmall))

@[simp] theorem refill_ratePerSec (word : Int → Int) (limiter : RateLimiter) (now : Int) :
    (limiter.refill word now).ratePerSec = limiter.ratePerSec := by
  unfold refill
  grind

@[simp] theorem refill_capacity (word : Int → Int) (limiter : RateLimiter) (now : Int) :
    (limiter.refill word now).capacity = limiter.capacity := by
  unfold refill
  grind

@[simp] theorem consume_ratePerSec (word : Int → Int) (limiter : RateLimiter) (now bytes : Int)
    (isSmall : Bool) : (limiter.consume word now bytes isSmall).1.ratePerSec = limiter.ratePerSec :=
  refill_ratePerSec word limiter now

theorem burst_eq_max {rate : Int} (nonneg : 0 ≤ rate) : burst rate = max 1500 (rate / 50) := by
  unfold burst
  rw [Int.tdiv_eq_ediv_of_nonneg nonneg]
  grind

theorem burst_ge (rate : Int) : 1500 ≤ burst rate := by
  unfold burst
  grind

theorem cost_nonneg {bytes : Int} (nonneg : 0 ≤ bytes) (isSmall : Bool) : 0 ≤ cost bytes isSmall := by
  unfold cost
  rw [Int.tdiv_eq_ediv_of_nonneg nonneg]
  cases isSmall <;> simp <;> omega

theorem cost_le {bytes : Int} (pos : 1 ≤ bytes) (isSmall : Bool) : cost bytes isSmall ≤ bytes := by
  unfold cost
  rw [Int.tdiv_eq_ediv_of_nonneg (by omega)]
  cases isSmall <;> simp
  omega

/-- The tokens a bucket would hold at a clock reading if nothing capped it. -/
def balance (limiter : RateLimiter) (now : Int) : Int :=
  limiter.tokens + earned limiter.ratePerSec 1000000000 (now - limiter.lastRefillNs)

theorem balance_mono {limiter : RateLimiter} (ratePos : 0 < limiter.ratePerSec) {first second : Int}
    (le : first ≤ second) : limiter.balance first ≤ limiter.balance second := by
  have := earned_mono ratePos (show (0 : Int) < 1000000000 by decide)
    (show first - limiter.lastRefillNs ≤ second - limiter.lastRefillNs by omega)
  unfold balance
  omega

section
variable {limiter : RateLimiter} {now : Int} (ratePos : 0 < limiter.ratePerSec)
  (tokensLe : limiter.tokens ≤ limiter.capacity) (started : limiter.lastRefillNs ≤ now)
include ratePos started

/-- In exact integers the refill has three outcomes: no whole token was earned,
the bucket is full, or the earned tokens are credited and the clock is moved by
the time they took. -/
theorem refill_cases :
    (limiter.refill id now = limiter ∧ limiter.balance now = limiter.tokens) ∨
    (limiter.refill id now = { limiter with tokens := limiter.capacity, lastRefillNs := now } ∧
      limiter.capacity ≤ limiter.balance now) ∨
    (limiter.refill id now =
        { limiter with
          tokens := limiter.balance now
          lastRefillNs := limiter.lastRefillNs + spent limiter.ratePerSec 1000000000
            (earned limiter.ratePerSec 1000000000 (now - limiter.lastRefillNs)) } ∧
      limiter.balance now < limiter.capacity) := by
  have elapsedNonneg : 0 ≤ now - limiter.lastRefillNs := by omega
  have earnedNonneg := earned_nonneg ratePos (show (0 : Int) < 1000000000 by decide) elapsedNonneg
  have product : ((now - limiter.lastRefillNs) * limiter.ratePerSec).tdiv 1000000000 =
      earned limiter.ratePerSec 1000000000 (now - limiter.lastRefillNs) :=
    Int.tdiv_eq_ediv_of_nonneg (Int.mul_nonneg elapsedNonneg ratePos.le)
  have back : (earned limiter.ratePerSec 1000000000 (now - limiter.lastRefillNs) *
      1000000000).tdiv limiter.ratePerSec = spent limiter.ratePerSec 1000000000
        (earned limiter.ratePerSec 1000000000 (now - limiter.lastRefillNs)) :=
    Int.tdiv_eq_ediv_of_nonneg (by omega)
  unfold refill balance
  simp only [id, product, back]
  by_cases idle : now - limiter.lastRefillNs = 0
  · left
    simp [idle, earned]
  · by_cases some : 0 < earned limiter.ratePerSec 1000000000 (now - limiter.lastRefillNs)
    · rw [if_pos ⟨by omega, ratePos⟩, if_pos some]
      split
      · exact .inr (.inl ⟨rfl, by omega⟩)
      · exact .inr (.inr ⟨rfl, by omega⟩)
    · left
      rw [if_pos ⟨by omega, ratePos⟩, if_neg some]
      exact ⟨rfl, by omega⟩

include tokensLe in
theorem refill_tokens : (limiter.refill id now).tokens = min limiter.capacity (limiter.balance now) := by
  rcases refill_cases ratePos started with ⟨same, idle⟩ | ⟨same, full⟩ | ⟨same, room⟩
  · rw [same, idle]
    omega
  · rw [same]
    simp only
    omega
  · rw [same]
    simp only
    omega

include tokensLe in
theorem tokens_le_refill : limiter.tokens ≤ (limiter.refill id now).tokens := by
  have earnedNonneg := earned_nonneg ratePos (show (0 : Int) < 1000000000 by decide)
    (show 0 ≤ now - limiter.lastRefillNs by omega)
  rw [refill_tokens ratePos tokensLe started]
  unfold balance
  omega

theorem refill_last_le : (limiter.refill id now).lastRefillNs ≤ now := by
  have took := spent_earned_le ratePos (show (0 : Int) < 1000000000 by decide)
    (now - limiter.lastRefillNs)
  rcases refill_cases ratePos started with ⟨same, -⟩ | ⟨same, -⟩ | ⟨same, -⟩ <;> rw [same]
  · exact started
  · change limiter.lastRefillNs + _ ≤ now
    omega

theorem refill_last_ge : limiter.lastRefillNs ≤ (limiter.refill id now).lastRefillNs := by
  have took := spent_nonneg ratePos (show (0 : Int) < 1000000000 by decide)
    (earned_nonneg ratePos (show (0 : Int) < 1000000000 by decide)
      (show 0 ≤ now - limiter.lastRefillNs by omega))
  rcases refill_cases ratePos started with ⟨same, -⟩ | ⟨same, -⟩ | ⟨same, -⟩ <;> rw [same]
  · exact started
  · change limiter.lastRefillNs ≤ limiter.lastRefillNs + _
    omega

theorem refill_balance_ge {later : Int} (le : now ≤ later) :
    min limiter.capacity (limiter.balance later) ≤ (limiter.refill id now).balance later := by
  rcases refill_cases ratePos started with ⟨same, -⟩ | ⟨same, -⟩ | ⟨same, -⟩
  · rw [same]
    omega
  · rw [same]
    have := earned_nonneg ratePos (show (0 : Int) < 1000000000 by decide)
      (show 0 ≤ later - now by omega)
    unfold balance
    simp only
    omega
  · have credit := earned_le_credit ratePos (show (0 : Int) < 1000000000 by decide)
      (later - limiter.lastRefillNs)
      (earned limiter.ratePerSec 1000000000 (now - limiter.lastRefillNs))
    rw [same]
    unfold balance
    simp only
    rw [Int.sub_sub] at credit
    omega

end

end RateLimiter

end ThrottleVpn.Limiter
