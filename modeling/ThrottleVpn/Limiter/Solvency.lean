import ThrottleVpn.Limiter.Levels
import ThrottleVpn.Limiter.Pacing

/-! A bucket whose rate is changed while it is in debt.

`Paced` bounds the debt by the rate, which a lower rate then breaks. What survives
every change of rate is a bound for all rates together, as long as one capped sleep
earns an MTU at each of them; and at whatever rate, a debt above `carried` is not
added to.
-/

set_option autoImplicit false

namespace ThrottleVpn.Limiter.RateLimiter

open Foundation

def Payable (sleepCapUs rate : Int) : Prop :=
  0 < rate ∧ 1500 * 1000000 ≤ rate * sleepCapUs ∧ rate * sleepCapUs ≤ 5000000000000 * 1000000

instance (sleepCapUs rate : Int) : Decidable (Payable sleepCapUs rate) :=
  inferInstanceAs (Decidable (_ ∧ _ ∧ _))

/-- A bucket that can be charged and given any payable rate: what is left of the debt
once the elapsed time is credited, at the rate it has or gets, is bounded. -/
structure Solvent (sleepCapUs : Int) (limiter : RateLimiter) (clock : Int) : Prop where
  payable : Payable sleepCapUs limiter.ratePerSec
  capacityEq : limiter.capacity = burst limiter.ratePerSec
  tokensLe : limiter.tokens ≤ limiter.capacity
  lastFits : Fits limiter.lastRefillNs
  started : limiter.lastRefillNs ≤ clock
  debt : -(1500 + 5000000000000) ≤ limiter.tokens
  owed : ∀ rate, Payable sleepCapUs rate →
    -5000000000000 ≤ limiter.tokens + earned rate 1000000000 (clock - limiter.lastRefillNs)

/-- From one clock reading to a later one at the same rate, a cost came off the level
and some refills were rounded; a debt above `carried` did not grow. -/
structure Spends (limiter : RateLimiter) (clock : Int) (next : RateLimiter) (later cost refills : Int) : Prop where
  rate : next.ratePerSec = limiter.ratePerSec
  pays : next.level later + cost * 1000000000 ≤
    limiter.level clock + limiter.ratePerSec * (later - clock) + refills * limiter.ratePerSec
  supported : min (-carried limiter.ratePerSec * 1000000000) (limiter.level clock) ≤ next.level later

theorem Spends.trans {first second third : RateLimiter} {clock later last cost more refills again : Int}
    (left : Spends first clock second later cost refills) (right : Spends second later third last more again) :
    Spends first clock third last (cost + more) (refills + again) where
  rate := right.rate.trans left.rate
  pays := by
    have before := left.pays
    have after := right.pays
    rw [left.rate] at after
    linarith
  supported := by
    have before := left.supported
    have after := right.supported
    rw [left.rate] at after
    exact le_trans (le_min (min_le_left _ _) before) after

theorem Spends.more {limiter next : RateLimiter} {clock later cost refills again : Int}
    (spends : Spends limiter clock next later cost refills) (ratePos : 0 < limiter.ratePerSec)
    (le : refills ≤ again) : Spends limiter clock next later cost again where
  rate := spends.rate
  pays := by
    have rounded := Int.mul_le_mul_of_nonneg_right le ratePos.le
    have pays := spends.pays
    omega
  supported := spends.supported

section
variable {sleepCapUs : Int} {limiter : RateLimiter} {clock : Int}

theorem Solvent.update (solvent : Solvent sleepCapUs limiter clock) {rate : Int}
    (payable : Payable sleepCapUs rate) :
    Solvent sleepCapUs (limiter.update rate) clock := by
  have full := burst_ge rate
  have debt := solvent.debt
  have tokens : (limiter.update rate).tokens = min (burst rate) limiter.tokens := by
    unfold RateLimiter.update
    grind
  refine ⟨payable, rfl, ?_, solvent.lastFits, solvent.started, ?_, ?_⟩
  · rw [tokens]
    exact min_le_left _ _
  · rw [tokens]
    omega
  · intro other otherPayable
    have owed := solvent.owed other otherPayable
    have nonneg := earned_nonneg otherPayable.1 (show (0 : Int) < 1000000000 by decide)
      (show 0 ≤ clock - limiter.lastRefillNs from Int.sub_nonneg.mpr solvent.started)
    rw [tokens]
    change -5000000000000 ≤ min (burst rate) limiter.tokens +
      earned other 1000000000 (clock - limiter.lastRefillNs)
    omega

theorem solvent_init {rate start : Int} (payable : Payable sleepCapUs rate) (startFits : Fits start) :
    Solvent sleepCapUs (init rate start) start := by
  have full := burst_ge rate
  refine ⟨payable, rfl, le_rfl, startFits, le_rfl, ?_, ?_⟩
  · simp only [init]
    omega
  · intro other otherPayable
    have nonneg := earned_nonneg otherPayable.1 (show (0 : Int) < 1000000000 by decide) (Int.le_refl 0)
    simp only [init, Int.sub_self]
    omega

variable (solvent : Solvent sleepCapUs limiter clock)
include solvent

theorem Solvent.wellFormed (capGe : 2000 ≤ sleepCapUs) : limiter.WellFormed := by
  obtain ⟨ratePos, -, high⟩ := solvent.payable
  have rateLe : limiter.ratePerSec * 2000 ≤ limiter.ratePerSec * sleepCapUs :=
    Int.mul_le_mul_of_nonneg_left capGe ratePos.le
  have capacityEq := solvent.capacityEq
  have tokensLe := solvent.tokensLe
  have debt := solvent.debt
  rw [burst_eq_max ratePos.le] at capacityEq
  exact ⟨ratePos, ⟨by omega, by omega⟩, solvent.capacityEq, tokensLe, ⟨by omega, by omega⟩, solvent.lastFits⟩

theorem Solvent.later {later : Int} (le : clock ≤ later) : Solvent sleepCapUs limiter later where
  payable := solvent.payable
  capacityEq := solvent.capacityEq
  tokensLe := solvent.tokensLe
  lastFits := solvent.lastFits
  started := solvent.started.trans le
  debt := solvent.debt
  owed := fun rate payable => by
    have owed := solvent.owed rate payable
    have grown := earned_mono payable.1 (show (0 : Int) < 1000000000 by decide)
      (show clock - limiter.lastRefillNs ≤ later - limiter.lastRefillNs by omega)
    omega

theorem Solvent.waits {later : Int} (le : clock ≤ later) : Spends limiter clock limiter later 0 0 where
  rate := rfl
  pays := by
    have elapsed := level_later solvent.payable.1 le
    omega
  supported := by
    have gained := limiter.worth_later clock later
    have nonneg : 0 ≤ limiter.ratePerSec * (later - clock) :=
      Int.mul_nonneg solvent.payable.1.le (by omega)
    unfold level
    omega

variable (capGe : 2000 ≤ sleepCapUs) {now : Int} (le : clock ≤ now) (fits : limiter.RefillFits now)
include capGe le fits

theorem Solvent.refill_exact : limiter.refill wrap now = limiter.refill id now :=
  refill_wrap_of_noOverflow
    (noOverflow_of_product (solvent.wellFormed capGe) (solvent.started.trans le) fits.1 fits.2.2)

theorem Solvent.refill_tokens_ge : -5000000000000 ≤ (limiter.refill wrap now).tokens := by
  have owed := (solvent.later le).owed limiter.ratePerSec solvent.payable
  have full := burst_ge limiter.ratePerSec
  rw [solvent.refill_exact capGe le fits,
    refill_tokens solvent.payable.1 solvent.tokensLe (solvent.started.trans le), solvent.capacityEq]
  unfold balance
  omega

theorem Solvent.refill : Solvent sleepCapUs (limiter.refill wrap now) now := by
  have ratePos := solvent.payable.1
  have started := solvent.started.trans le
  have tokensGe := solvent.refill_tokens_ge capGe le fits
  have tokensEq := refill_tokens ratePos solvent.tokensLe started
  have lastGe := refill_last_ge ratePos started
  have lastLe := refill_last_le ratePos started
  have lastLow := solvent.lastFits.1
  have nowHigh := fits.1.2
  rw [solvent.refill_exact capGe le fits] at tokensGe ⊢
  refine ⟨?_, ?_, ?_, ⟨by omega, by omega⟩, lastLe, by omega, ?_⟩
  · rw [refill_ratePerSec]
    exact solvent.payable
  · rw [refill_capacity, refill_ratePerSec]
    exact solvent.capacityEq
  · rw [tokensEq, refill_capacity]
    exact min_le_left _ _
  · intro rate payable
    have nonneg := earned_nonneg payable.1 (show (0 : Int) < 1000000000 by decide)
      (show 0 ≤ now - (limiter.refill id now).lastRefillNs by omega)
    omega

theorem Solvent.looks : Spends limiter clock (limiter.refill wrap now) now 0 1 := by
  have elapsed := level_later solvent.payable.1 le
  have rounded := refill_level_le solvent.payable.1 (solvent.started.trans le)
  have kept := refill_level_ge solvent.payable.1 (solvent.started.trans le)
  have waited := (solvent.waits le).supported
  have full := burst_ge limiter.ratePerSec
  have nonneg : 0 ≤ carried limiter.ratePerSec := by
    unfold carried
    omega
  rw [solvent.refill_exact capGe le fits]
  refine ⟨refill_ratePerSec .., by omega, ?_⟩
  rw [solvent.capacityEq] at kept
  omega

end

section
variable {sleepCapUs : Int} {limiter : RateLimiter} {now cost : Int}
  (solvent : Solvent sleepCapUs limiter now) (capGe : 2000 ≤ sleepCapUs) (capLe : sleepCapUs ≤ 50000)
  (afloat : -5000000000000 ≤ limiter.tokens) (costNonneg : 0 ≤ cost)
  (affordable : cost ≤ 1500 ∨ cost ≤ limiter.tokens)
include solvent capGe afloat costNonneg affordable

theorem Solvent.charge_tokens : (limiter.charge wrap cost).tokens = limiter.tokens - cost := by
  have tokensHigh := (solvent.wellFormed capGe).tokensFits.2
  exact wrap_of_fits ⟨by omega, by omega⟩

include capLe in
theorem Solvent.charge_cases :
    cost ≤ limiter.tokens ∨
    (cost - limiter.tokens) * 500 < limiter.ratePerSec ∨
    (cost - limiter.tokens) * 1000000 <
        limiter.ratePerSec * (min (limiter.advisedWait wrap cost) sleepCapUs + 1) ∧
      0 ≤ min (limiter.advisedWait wrap cost) sleepCapUs ∧
      limiter.advisedWait wrap cost < sleepCapUs ∨
    cost ≤ 1500 ∧ min (limiter.advisedWait wrap cost) sleepCapUs = sleepCapUs := by
  obtain ⟨ratePos, -, -⟩ := solvent.payable
  by_cases enough : cost ≤ limiter.tokens
  · exact .inl enough
  have small : cost ≤ 1500 := affordable.resolve_right enough
  have deficitFits : Fits (cost - limiter.tokens) := ⟨by omega, by omega⟩
  have productFits : Fits ((cost - limiter.tokens) * 1000000) := ⟨by omega, by omega⟩
  have quotient := Int.tdiv_eq_ediv_of_nonneg (b := limiter.ratePerSec)
    (show 0 ≤ (cost - limiter.tokens) * 1000000 by omega)
  have floor := Int.lt_ediv_add_one_mul_self ((cost - limiter.tokens) * 1000000) ratePos
  have wait : limiter.advisedWait wrap cost =
      if (cost - limiter.tokens) * 1000000 / limiter.ratePerSec < 2000 then 0
      else min ((cost - limiter.tokens) * 1000000 / limiter.ratePerSec) 50000 := by
    unfold advisedWait
    simp only [if_neg enough, if_pos ratePos, wrap_of_fits deficitFits, wrap_of_fits productFits, quotient]
    split
    next short => rfl
    next long => omega
  -- `micros` is the wait before it is cut off
  generalize (cost - limiter.tokens) * 1000000 / limiter.ratePerSec = micros at *
  right
  by_cases short : micros < 2000
  · left
    nlinarith
  · rw [if_neg short] at wait
    right
    rcases lt_or_ge micros sleepCapUs with brief | long
    · left
      have same : min (limiter.advisedWait wrap cost) sleepCapUs = micros := by omega
      rw [same]
      refine ⟨?_, by omega, by omega⟩
      rw [Int.mul_comm limiter.ratePerSec]
      exact floor
    · right
      exact ⟨small, by omega⟩

variable {later : Int} (slept : now + 1000 * min (limiter.advisedWait wrap cost) sleepCapUs ≤ later)
  (le : now ≤ later)
include capLe slept le

theorem Solvent.charge : Solvent sleepCapUs (limiter.charge wrap cost) later := by
  have tokensEq := solvent.charge_tokens capGe afloat costNonneg affordable
  have outcome := solvent.charge_cases capGe capLe afloat costNonneg affordable
  have started := solvent.started
  obtain ⟨ratePos, -, high⟩ := solvent.payable
  refine ⟨solvent.payable, solvent.capacityEq, ?_, solvent.lastFits, started.trans le, ?_, ?_⟩
  · rw [tokensEq]
    exact le_trans (by omega) solvent.tokensLe
  · rw [tokensEq]
    omega
  · intro rate payable
    have nonneg := earned_nonneg payable.1 (show (0 : Int) < 1000000000 by decide)
      (show 0 ≤ later - limiter.lastRefillNs by omega)
    rw [tokensEq]
    change -5000000000000 ≤ limiter.tokens - cost + earned rate 1000000000 (later - limiter.lastRefillNs)
    rcases outcome with enough | slight | ⟨paid, -, brief⟩ | ⟨small, whole⟩
    · omega
    · have scaled := Int.mul_le_mul_of_nonneg_left capGe ratePos.le
      omega
    · have scaled : limiter.ratePerSec * (min (limiter.advisedWait wrap cost) sleepCapUs + 1) ≤
          limiter.ratePerSec * sleepCapUs := Int.mul_le_mul_of_nonneg_left (by omega) ratePos.le
      omega
    · -- one capped sleep pays for the packet at the new rate too
      have elapsed : 1000 * sleepCapUs ≤ later - limiter.lastRefillNs := by omega
      have grown := earned_mono payable.1 (show (0 : Int) < 1000000000 by decide) elapsed
      have earns : 1500 ≤ earned rate 1000000000 (1000 * sleepCapUs) := by
        apply Int.le_ediv_of_mul_le (by decide)
        have pays := payable.2.1
        linarith [Int.mul_comm rate sleepCapUs, Int.mul_assoc 1000 sleepCapUs rate]
      omega

/-- A debt above `carried` is paid back faster than packets add to it. -/
theorem Solvent.charge_supported :
    min (-carried limiter.ratePerSec * 1000000000) (limiter.level now) ≤
      (limiter.charge wrap cost).level later := by
  have tokensEq := solvent.charge_tokens capGe afloat costNonneg affordable
  have outcome := solvent.charge_cases capGe capLe afloat costNonneg affordable
  obtain ⟨ratePos, pays, -⟩ := solvent.payable
  have credited : 0 ≤ limiter.ratePerSec * (now - limiter.lastRefillNs) :=
    Int.mul_nonneg ratePos.le (by have := solvent.started; omega)
  have waited : limiter.ratePerSec * (1000 * min (limiter.advisedWait wrap cost) sleepCapUs) ≤
      limiter.ratePerSec * (later - now) := Int.mul_le_mul_of_nonneg_left (by omega) ratePos.le
  have passed : 0 ≤ limiter.ratePerSec * (later - now) := Int.mul_nonneg ratePos.le (by omega)
  have worth : (limiter.charge wrap cost).worth later =
      limiter.worth now - cost * 1000000000 + limiter.ratePerSec * (later - now) := by
    unfold RateLimiter.worth
    rw [tokensEq]
    change _ + limiter.ratePerSec * (later - limiter.lastRefillNs) = _
    ring
  have ceiling : (limiter.charge wrap cost).ceiling = limiter.ceiling := rfl
  have carriedGe : 1500 ≤ carried limiter.ratePerSec ∧
      limiter.ratePerSec ≤ 500 * carried limiter.ratePerSec + 500 := by
    unfold carried
    omega
  have tokensWorth : limiter.tokens * 1000000000 ≤ limiter.worth now := by
    unfold RateLimiter.worth
    omega
  unfold level
  rw [worth, ceiling]
  -- no debt, a slight one, one that was slept off, or no more debt than before
  rcases outcome with enough | slight | ⟨paid, nonneg, brief⟩ | ⟨small, whole⟩
  · omega
  · have few : cost - limiter.tokens ≤ carried limiter.ratePerSec := by
      unfold carried
      omega
    omega
  · have whole : limiter.ratePerSec * (1000 * min (limiter.advisedWait wrap cost) sleepCapUs) =
        1000 * (limiter.ratePerSec * min (limiter.advisedWait wrap cost) sleepCapUs) := by ring
    rw [Int.mul_add, Int.mul_one] at paid
    omega
  · rw [whole] at waited
    have scaled : limiter.ratePerSec * (1000 * sleepCapUs) = 1000 * (limiter.ratePerSec * sleepCapUs) := by ring
    omega

end

/-- One `rate_limiter_consume` of at most an MTU, or of at most the tokens seen
before, followed by the capped sleep. -/
theorem Solvent.consume {sleepCapUs : Int} {limiter : RateLimiter} {clock now later bytes : Int} {isSmall : Bool}
    (solvent : Solvent sleepCapUs limiter clock) (capGe : 2000 ≤ sleepCapUs) (capLe : sleepCapUs ≤ 50000)
    (le : clock ≤ now) (fits : limiter.RefillFits now) (bytesPos : 1 ≤ bytes)
    (covered : bytes ≤ 1500 ∨ bytes ≤ limiter.tokens)
    (slept : now + 1000 * min (limiter.consume wrap now bytes isSmall).2 sleepCapUs ≤ later)
    (after : now ≤ later) :
    Solvent sleepCapUs (limiter.consume wrap now bytes isSmall).1 later ∧
      Spends limiter clock (limiter.consume wrap now bytes isSmall).1 later (cost bytes isSmall) 1 := by
  have started := solvent.started.trans le
  have refilled := solvent.refill capGe le fits
  have afloat := solvent.refill_tokens_ge capGe le fits
  have costNonneg := cost_nonneg (show 0 ≤ bytes by omega) isSmall
  have discount := cost_le bytesPos isSmall
  -- what covered the packet before covers it after the refill
  have kept : limiter.tokens ≤ (limiter.refill wrap now).tokens := by
    rw [solvent.refill_exact capGe le fits]
    exact tokens_le_refill solvent.payable.1 solvent.tokensLe started
  have affordable : cost bytes isSmall ≤ 1500 ∨ cost bytes isSmall ≤ (limiter.refill wrap now).tokens :=
    covered.imp discount.trans fun enough => discount.trans (enough.trans kept)
  have low : (limiter.refill wrap now).worth now ≤ (limiter.refill wrap now).ceiling := by
    rw [refill_ceiling, solvent.refill_exact capGe le fits]
    exact refill_worth_le_ceiling solvent.payable.1 solvent.tokensLe started
  have charged := charge_level wrap low (refilled.charge_tokens capGe afloat costNonneg affordable)
  have supported := refilled.charge_supported capGe capLe afloat costNonneg affordable slept after
  have spends : Spends (limiter.refill wrap now) now (limiter.consume wrap now bytes isSmall).1 later
      (cost bytes isSmall) 0 := by
    refine ⟨rfl, ?_, supported⟩
    have slow : 0 < ((limiter.refill wrap now).charge wrap (cost bytes isSmall)).ratePerSec := refilled.payable.1
    have waited := level_later slow after
    change ((limiter.refill wrap now).charge wrap (cost bytes isSmall)).level later + _ ≤ _
    change _ ≤ _ + (limiter.refill wrap now).ratePerSec * (later - now) at waited
    omega
  refine ⟨refilled.charge capGe capLe afloat costNonneg affordable slept after, ?_⟩
  have both := (solvent.looks capGe le fits).trans spends
  rwa [Int.zero_add] at both

end ThrottleVpn.Limiter.RateLimiter
