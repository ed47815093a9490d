import ThrottleVpn.Limiter.Exactness

/-! Debt under pacing: charge at most one MTU past the tokens, then sleep.

Both directions of the engine charge the bucket and sleep for the advised wait
cut off at some cap (5 ms for a download, 50 ms for an upload). The sleep pays
the debt back as long as one capped sleep earns at least one MTU. Rates so high
that the microsecond product of `advisedWait` overflows are excluded by the
upper bound.
-/

set_option autoImplicit false

namespace ThrottleVpn.Limiter.RateLimiter

open Foundation

/-- Largest rate at which a debt that calls for a sleep still fits the wait product. -/
def maxPacedRate : Int := 4611686017677500

/-- One capped sleep earns an MTU, and the advised wait never overflows. -/
def Enforceable (sleepCapUs rate : Int) : Prop :=
  1500 * 1000000 ≤ rate * sleepCapUs ∧ rate ≤ maxPacedRate

def carried (rate : Int) : Int := max 1500 ((rate - 1) / 500)

/-- A bucket whose debt is under control at a clock reading: what is left of the
debt once the elapsed time is credited stays within `carried`. -/
structure Paced (limiter : RateLimiter) (clock : Int) : Prop where
  ratePos : 0 < limiter.ratePerSec
  rateLe : limiter.ratePerSec ≤ maxPacedRate
  capacityEq : limiter.capacity = burst limiter.ratePerSec
  tokensLe : limiter.tokens ≤ limiter.capacity
  lastFits : Fits limiter.lastRefillNs
  started : limiter.lastRefillNs ≤ clock
  debt : -(1500 + carried limiter.ratePerSec) ≤ limiter.tokens
  owed : -carried limiter.ratePerSec ≤ limiter.balance clock

theorem Paced.wellFormed {limiter : RateLimiter} {clock : Int} (paced : limiter.Paced clock) :
    limiter.WellFormed := by
  have ratePos := paced.ratePos
  have rateLe := paced.rateLe
  have capacityEq := paced.capacityEq
  have tokensLe := paced.tokensLe
  have debt := paced.debt
  rw [burst_eq_max ratePos.le] at capacityEq
  unfold maxPacedRate at rateLe
  unfold carried at debt
  exact ⟨ratePos, ⟨by omega, by omega⟩, paced.capacityEq, tokensLe, ⟨by omega, by omega⟩,
    paced.lastFits⟩

theorem Paced.later {limiter : RateLimiter} {clock later : Int} (paced : limiter.Paced clock)
    (le : clock ≤ later) : limiter.Paced later where
  ratePos := paced.ratePos
  rateLe := paced.rateLe
  capacityEq := paced.capacityEq
  tokensLe := paced.tokensLe
  lastFits := paced.lastFits
  started := paced.started.trans le
  debt := paced.debt
  owed := paced.owed.trans (balance_mono paced.ratePos le)

theorem paced_init {rate start : Int} (ratePos : 0 < rate) (rateLe : rate ≤ maxPacedRate)
    (startFits : Fits start) : (init rate start).Paced start where
  ratePos := ratePos
  rateLe := rateLe
  capacityEq := rfl
  tokensLe := le_rfl
  lastFits := startFits
  started := le_rfl
  debt := by
    have := burst_ge rate
    unfold carried
    simp only [init]
    omega
  owed := by
    have := burst_ge rate
    have := earned_nonneg ratePos (show (0 : Int) < 1000000000 by decide) (Int.le_refl 0)
    unfold balance carried
    simp only [init, Int.sub_self]
    omega

def RefillFits (limiter : RateLimiter) (now : Int) : Prop :=
  Fits now ∧ Fits ((now - limiter.lastRefillNs) * limiter.ratePerSec)

instance (limiter : RateLimiter) (now : Int) : Decidable (limiter.RefillFits now) :=
  inferInstanceAs (Decidable (_ ∧ _))

section
variable {limiter : RateLimiter} {clock now : Int} (paced : limiter.Paced clock)
  (le : clock ≤ now) (fits : limiter.RefillFits now)
include paced le fits

theorem Paced.refill_exact : limiter.refill wrap now = limiter.refill id now :=
  refill_wrap_of_noOverflow
    (noOverflow_of_product paced.wellFormed (paced.started.trans le) fits.1 fits.2.2)

theorem Paced.refill_tokens_ge : -carried limiter.ratePerSec ≤ (limiter.refill wrap now).tokens := by
  have ratePos := paced.ratePos
  rw [paced.refill_exact le fits,
    refill_tokens ratePos paced.tokensLe (paced.started.trans le)]
  have room := burst_ge limiter.ratePerSec
  have owed := (paced.later le).owed
  rw [paced.capacityEq]
  unfold carried at owed ⊢
  omega

theorem Paced.tokens_le_refill : limiter.tokens ≤ (limiter.refill wrap now).tokens := by
  rw [paced.refill_exact le fits]
  exact RateLimiter.tokens_le_refill paced.ratePos paced.tokensLe (paced.started.trans le)

theorem Paced.refill : (limiter.refill wrap now).Paced now := by
  have started := paced.started.trans le
  have tokensGe := paced.refill_tokens_ge le fits
  have balanceGe := refill_balance_ge paced.ratePos started (le_refl now)
  have owed := (paced.later le).owed
  have lastGe := refill_last_ge paced.ratePos started
  have lastLe := refill_last_le paced.ratePos started
  have room := burst_ge limiter.ratePerSec
  have tokensEq := refill_tokens paced.ratePos paced.tokensLe started
  have lastLow := paced.lastFits.1
  have nowHigh := fits.1.2
  rw [paced.refill_exact le fits] at tokensGe ⊢
  refine ⟨by simpa using paced.ratePos, by simpa using paced.rateLe, by simpa using paced.capacityEq,
    ?_, ⟨by omega, by omega⟩, lastLe, ?_, ?_⟩
  · rw [tokensEq, refill_capacity]
    omega
  · rw [refill_ratePerSec]
    omega
  · rw [paced.capacityEq] at balanceGe
    rw [refill_ratePerSec]
    unfold carried at owed ⊢
    omega

end

section
variable {limiter : RateLimiter} {now : Int} (paced : limiter.Paced now)
  (tokensGe : -carried limiter.ratePerSec ≤ limiter.tokens) {cost : Int}
  (cheap : cost ≤ 1500 ∨ cost ≤ limiter.tokens)
include paced tokensGe cheap

/-- The advised wait is computed without overflow: nothing for a debt below
2 ms of the rate, else the debt's worth of time, at most 50 ms. -/
theorem Paced.advisedWait_eq : limiter.advisedWait wrap cost =
    if (cost - limiter.tokens) * 1000000 / limiter.ratePerSec < 2000 then 0
    else min ((cost - limiter.tokens) * 1000000 / limiter.ratePerSec) 50000 := by
  have ratePos := paced.ratePos
  have rateLe := paced.rateLe
  unfold advisedWait
  by_cases enough : cost ≤ limiter.tokens
  · have negative : (cost - limiter.tokens) * 1000000 / limiter.ratePerSec ≤ 0 :=
      Int.ediv_nonpos_of_nonpos_of_neg (by omega) ratePos
    rw [if_pos enough, if_pos (by omega)]
  · unfold maxPacedRate at rateLe
    unfold carried at tokensGe
    have deficitFits : Fits (cost - limiter.tokens) := ⟨by omega, by omega⟩
    have productFits : Fits ((cost - limiter.tokens) * 1000000) := ⟨by omega, by omega⟩
    have quotient := Int.tdiv_eq_ediv_of_nonneg (b := limiter.ratePerSec)
      (show 0 ≤ (cost - limiter.tokens) * 1000000 by omega)
    simp only [if_neg enough, if_pos ratePos, wrap_of_fits deficitFits, wrap_of_fits productFits,
      quotient]
    split
    next short => rfl
    next long => omega

theorem Paced.charge_tokens (costNonneg : 0 ≤ cost) :
    (limiter.charge wrap cost).tokens = limiter.tokens - cost := by
  obtain ⟨-, tokensHigh⟩ := paced.wellFormed.tokensFits
  have rateLe := paced.rateLe
  unfold maxPacedRate at rateLe
  unfold carried at tokensGe
  exact wrap_of_fits ⟨by omega, by omega⟩

end

theorem debt_after_sleep (debt : Int) {rate sleepCapUs : Int} (ratePos : 0 < rate)
    (enforceable : Enforceable sleepCapUs rate) (capLe : sleepCapUs ≤ 50000)
    (debtLe : debt ≤ 1500 + carried rate) :
    debt - earned rate 1000000000
      (1000 * min (if debt * 1000000 / rate < 2000 then 0
        else min (debt * 1000000 / rate) 50000) sleepCapUs) ≤ carried rate := by
  obtain ⟨pays, -⟩ := enforceable
  have capPos : 0 < sleepCapUs := by
    by_contra negative
    have := Int.mul_nonpos_of_nonneg_of_nonpos ratePos.le (show sleepCapUs ≤ 0 by omega)
    omega
  have floor := Int.lt_ediv_add_one_mul_self (debt * 1000000) ratePos
  generalize debt * 1000000 / rate = wait at *
  by_cases short : wait < 2000
  · have below : debt * 500 < rate := by nlinarith
    have zero : earned rate 1000000000 (1000 * 0) = 0 := by simp [earned]
    rw [if_pos short, min_eq_left capPos.le, zero]
    unfold carried
    omega
  · rw [if_neg short]
    rcases le_or_gt sleepCapUs wait with long | brief
    · have whole : 1500 ≤ earned rate 1000000000 (1000 * sleepCapUs) := by
        apply Int.le_ediv_of_mul_le (by decide)
        linarith [Int.mul_comm rate sleepCapUs, Int.mul_assoc 1000 sleepCapUs rate]
      rw [min_eq_right (by omega)]
      omega
    · have paid : debt + (1 - rate) / 1000000 ≤ earned rate 1000000000 (1000 * wait) := by
        apply Int.le_ediv_of_mul_le (by decide)
        have round := Int.ediv_mul_le (1 - rate) (show (1000000 : Int) ≠ 0 by decide)
        nlinarith
      rw [min_eq_left (by omega), min_eq_left (by omega)]
      unfold carried
      omega

/-- Charging a packet and sleeping at least the capped wait keeps a bucket paced. -/
theorem Paced.charge {limiter : RateLimiter} {now later cost sleepCapUs : Int}
    (paced : limiter.Paced now) (tokensGe : -carried limiter.ratePerSec ≤ limiter.tokens)
    (enforceable : Enforceable sleepCapUs limiter.ratePerSec) (capLe : sleepCapUs ≤ 50000)
    (costNonneg : 0 ≤ cost) (cheap : cost ≤ 1500 ∨ cost ≤ limiter.tokens)
    (slept : now + 1000 * min (limiter.advisedWait wrap cost) sleepCapUs ≤ later) (le : now ≤ later) :
    (limiter.charge wrap cost).Paced later := by
  have tokensEq := paced.charge_tokens tokensGe cheap costNonneg
  have waitEq := paced.advisedWait_eq tokensGe cheap
  have ratePos := paced.ratePos
  have nonneg : 0 ≤ carried limiter.ratePerSec := by
    unfold carried
    omega
  have debt : -(1500 + carried limiter.ratePerSec) ≤ limiter.tokens - cost := by omega
  refine ⟨ratePos, paced.rateLe, paced.capacityEq, ?_, paced.lastFits, paced.started.trans le, ?_, ?_⟩
  · rw [tokensEq]
    exact le_trans (by omega) paced.tokensLe
  · rw [tokensEq]
    exact debt
  · have left := debt_after_sleep (cost - limiter.tokens) ratePos enforceable capLe (by omega)
    rw [← waitEq] at left
    have started := paced.started
    have elapsed := earned_mono ratePos (show (0 : Int) < 1000000000 by decide)
      (show 1000 * min (limiter.advisedWait wrap cost) sleepCapUs ≤
        later - limiter.lastRefillNs by omega)
    unfold balance
    rw [tokensEq]
    change -carried limiter.ratePerSec ≤ limiter.tokens - cost +
      earned limiter.ratePerSec 1000000000 (later - limiter.lastRefillNs)
    omega

theorem Paced.consume {limiter : RateLimiter} {clock now later bytes sleepCapUs : Int} {isSmall : Bool}
    (paced : limiter.Paced clock) (le : clock ≤ now) (fits : limiter.RefillFits now)
    (enforceable : Enforceable sleepCapUs limiter.ratePerSec) (capLe : sleepCapUs ≤ 50000)
    (bytesPos : 1 ≤ bytes) (covered : bytes ≤ 1500 ∨ bytes ≤ limiter.tokens)
    (slept : now + 1000 * min (limiter.consume wrap now bytes isSmall).2 sleepCapUs ≤ later)
    (after : now ≤ later) : (limiter.consume wrap now bytes isSmall).1.Paced later := by
  have discount := cost_le bytesPos isSmall
  have refilled := paced.tokens_le_refill le fits
  refine (paced.refill le fits).charge ?_ ?_ capLe (cost_nonneg (by omega) isSmall) ?_ slept after
  · rw [refill_ratePerSec]
    exact paced.refill_tokens_ge le fits
  · rw [refill_ratePerSec]
    exact enforceable
  · exact covered.imp discount.trans fun enough => discount.trans (enough.trans refilled)

theorem carried_le {sleepCapUs rate : Int} (ratePos : 0 < rate)
    (enforceable : Enforceable sleepCapUs rate) (capGe : 2000 ≤ sleepCapUs) :
    carried rate ≤ rate * sleepCapUs / 1000000 := by
  have pays := enforceable.1
  apply Int.le_ediv_of_mul_le (by decide)
  have scaled := Int.mul_le_mul_of_nonneg_left capGe ratePos.le
  unfold carried
  omega

end ThrottleVpn.Limiter.RateLimiter
