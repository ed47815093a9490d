import ThrottleVpn.Limiter.Drift
import ThrottleVpn.Limiter.Exactness

/-! What a change of the rate does to the bucket.

`rate_limiter_update` settles nothing: the debt run up at rate 0 stays in the tokens,
and `last_refill_ns` stays where it is, so that the next refill credits the whole
time since then at the new rate.
-/

set_option autoImplicit false

namespace ThrottleVpn.Limiter.RateLimiter

open Foundation

/-! ### From unlimited to a rate -/

theorem poll_unlimited {limiter : RateLimiter} (unlimited : limiter.ratePerSec = 0)
    (fits : Fits limiter.tokens) (call : Call) :
    limiter.poll wrap call = { limiter with tokens := wrap (limiter.tokens - call.cost) } := by
  have idle : limiter.refill wrap call.reading = limiter := by
    unfold refill
    apply if_neg
    simp [unlimited]
  cases call with
  | consume now bytes isSmall =>
    change (limiter.refill wrap now).charge wrap _ = _
    rw [show limiter.refill wrap now = limiter from idle]
    rfl
  | available now =>
    change limiter.refill wrap now = _
    rw [show limiter.refill wrap now = limiter from idle, Call.cost, Int.sub_zero, wrap_of_fits fits]

theorem foldl_poll_unlimited {limiter : RateLimiter} (unlimited : limiter.ratePerSec = 0)
    (fits : Fits limiter.tokens) (calls : List Call) :
    calls.foldl (poll wrap) limiter =
      { limiter with tokens := wrap (limiter.tokens - (calls.map Call.cost).sum) } := by
  induction calls generalizing limiter with
  | nil => simp [wrap_of_fits fits]
  | cons call rest ih =>
    rw [List.foldl_cons, poll_unlimited unlimited fits, ih (by exact unlimited) (wrap_fits _)]
    simp only [List.map_cons, List.sum_cons, wrap_wrap_sub]
    rw [Int.sub_sub]

def backPay (limiter : RateLimiter) (rate now : Int) : Int :=
  let elapsed := wrap (now - limiter.lastRefillNs)
  if 0 < elapsed then max 0 ((wrap (elapsed * rate)).tdiv 1000000000) else 0

/-- The cost of the calls does not exceed the tokens and what the new rate credits. -/
def Covers (limiter : RateLimiter) (calls : List Call) (rate now : Int) : Prop :=
  0 ≤ wrap (limiter.tokens - (calls.map Call.cost).sum) + limiter.backPay rate now

theorem update_eq (limiter : RateLimiter) (rate : Int) :
    limiter.update rate = ⟨min (burst rate) limiter.tokens, burst rate, rate, limiter.lastRefillNs⟩ := by
  simp only [update, mk.injEq, and_true]
  split <;> omega

theorem available_update {limiter : RateLimiter} (fits : Fits limiter.tokens) {rate : Int}
    (ratePos : 0 < rate) (rateFits : Fits rate) (now : Int) :
    ((limiter.update rate).available wrap now).2 =
      min (burst rate) (min (burst rate) limiter.tokens + limiter.backPay rate now) := by
  have room := burst_ge rate
  have high : burst rate ≤ 2 ^ 63 / 50 := by
    have rateHigh := rateFits.2
    rw [burst_eq_max ratePos.le]
    omega
  obtain ⟨low, -⟩ := fits
  unfold available backPay refill
  simp only [update_eq]
  by_cases passed : 0 < wrap (now - limiter.lastRefillNs)
  · have productHigh := (wrap_fits (wrap (now - limiter.lastRefillNs) * rate)).2
    simp only [if_pos (And.intro passed ratePos), if_pos passed]
    generalize wrap (wrap (now - limiter.lastRefillNs) * rate) = product at *
    by_cases some : 0 < product.tdiv 1000000000
    · have quotient := Int.tdiv_le_tdiv (show (0 : Int) < 1000000000 by decide) productHigh.le
      rw [show ((2 : Int) ^ 63).tdiv 1000000000 = 9223372036 by decide] at quotient
      have stored : Fits (min (burst rate) limiter.tokens + product.tdiv 1000000000) :=
        ⟨by omega, by omega⟩
      simp only [if_pos some, wrap_of_fits stored]
      split <;> simp only <;> omega
    · simp only [if_neg some]
      omega
  · simp only [if_neg (fun both => passed (And.left both)), if_neg passed]
    omega

/-- Traffic at rate 0 leaves the first reading under a new rate without debt, if and
only if the tokens and the idle time at the new rate cover what it cost. -/
theorem unlimited_leaves_no_debt_iff (limiter : RateLimiter) (calls : List Call) (rate now : Int)
    (unlimited : limiter.ratePerSec = 0) (fits : Fits limiter.tokens) (ratePos : 0 < rate)
    (rateFits : Fits rate) :
    0 ≤ (((calls.foldl (poll wrap) limiter).update rate).available wrap now).2 ↔
      limiter.Covers calls rate now := by
  have room := burst_ge rate
  have backPay_nonneg : 0 ≤ limiter.backPay rate now := by
    unfold backPay
    dsimp only
    split <;> omega
  rw [foldl_poll_unlimited unlimited fits, available_update (by exact wrap_fits _) ratePos rateFits]
  unfold Covers
  simp only [backPay] at backPay_nonneg ⊢
  omega

theorem unlimited_leaves_no_debt_iff_download :
    0 ≤ ((([Call.consume 0 60000 false].foldl (poll wrap) ⟨1500, 1500, 0, 0⟩).update 125000).available
        wrap 1000000000).2 ↔
      (⟨1500, 1500, 0, 0⟩ : RateLimiter).Covers [.consume 0 60000 false] 125000 1000000000 :=
  unlimited_leaves_no_debt_iff ⟨1500, 1500, 0, 0⟩ [.consume 0 60000 false] 125000 1000000000 rfl
    (by decide) (by decide) (by decide)

/-- A download of 60000 bytes at rate 0 blocks a cap of 1 Mbps set a millisecond later. -/
theorem unlimited_leaves_debt :
    ¬0 ≤ ((([Call.consume 0 60000 false].foldl (poll wrap) ⟨1500, 1500, 0, 0⟩).update 125000).available
      wrap 1000000).2 := by decide

/-! ### From one rate to another -/

/-- The time before a change counts at the old rate only: the bound on what a later
reading shows. -/
def CreditsOldTime (limiter : RateLimiter) (rate changed reading : Int) : Prop :=
  ((limiter.update rate).available id reading).2 ≤
    min (burst rate) (limiter.available id changed).2 + rate * (reading - changed) / 1000000000 + 1

/-- The idle time before the change is worth no more at the new rate than at the old
one, up to a token and the fraction that the reading leaves on the clock; or the time
after the change fills the bucket, up to a token. -/
def Unaffected (limiter : RateLimiter) (rate changed reading : Int) : Prop :=
  (changed - limiter.lastRefillNs) * rate ≤
      (limiter.exactTokens changed - min (burst rate) limiter.tokens + 1) * 1000000000 +
        (reading - limiter.lastRefillNs) * rate % 1000000000 ∨
    (burst rate - limiter.exactTokens changed - 1) * 1000000000 ≤ rate * (reading - changed)

/-- A change of the rate is not retroactive, if and only if the idle time before it
makes no difference. -/
theorem rate_change_retroactive_iff (limiter : RateLimiter) (rate changed reading : Int)
    (oldPos : 0 < limiter.ratePerSec) (newPos : 0 < rate) (tokensLe : limiter.tokens ≤ limiter.capacity)
    (started : limiter.lastRefillNs ≤ changed) (later : changed ≤ reading) :
    limiter.CreditsOldTime rate changed reading ↔ limiter.Unaffected rate changed reading := by
  have before : (limiter.available id changed).2 = limiter.exactTokens changed :=
    refill_tokens oldPos tokensLe started
  have after : ((limiter.update rate).available id reading).2 =
      min (burst rate)
        (min (burst rate) limiter.tokens + (reading - limiter.lastRefillNs) * rate / 1000000000) := by
    have same := @refill_tokens (limiter.update rate) reading newPos
      (by rw [update_eq]; exact min_le_left ..) (started.trans later)
    unfold balance earned at same
    rw [update_eq] at same ⊢
    exact same
  -- the elapsed time is the time before the change and the time after it
  have whole : (reading - limiter.lastRefillNs) * rate =
      (changed - limiter.lastRefillNs) * rate + rate * (reading - changed) := by ring
  have sinceNonneg : 0 ≤ rate * (reading - changed) := Int.mul_nonneg newPos.le (by omega)
  have idleNonneg : 0 ≤ (changed - limiter.lastRefillNs) * rate := Int.mul_nonneg (by omega) newPos.le
  unfold CreditsOldTime Unaffected
  rw [before, after]
  generalize rate * (reading - changed) = since at *
  generalize (changed - limiter.lastRefillNs) * rate = idle at *
  generalize (reading - limiter.lastRefillNs) * rate = total at *
  generalize limiter.exactTokens changed = shown at *
  omega

theorem rate_change_retroactive_iff_doubled :
    (⟨0, 2500, 125000, 0⟩ : RateLimiter).CreditsOldTime 250000 8000 16000 ↔
      (⟨0, 2500, 125000, 0⟩ : RateLimiter).Unaffected 250000 8000 16000 :=
  rate_change_retroactive_iff ⟨0, 2500, 125000, 0⟩ 250000 8000 16000 (by decide) (by decide) (by decide)
    (by decide) (by decide)

/-- An idle second at 1000 bytes per second counts as one at 1000000 once the rate is raised. -/
theorem rate_change_is_retroactive :
    ¬(⟨0, 1500, 1000, 0⟩ : RateLimiter).CreditsOldTime 1000000 1000000000 1000000000 := by
  unfold CreditsOldTime
  decide

end ThrottleVpn.Limiter.RateLimiter
