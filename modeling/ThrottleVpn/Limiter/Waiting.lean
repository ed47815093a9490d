import ThrottleVpn.Limiter.Bounded
import ThrottleVpn.Limiter.Pacing

/-! What the two answers of the limiter are worth to its callers.

Runs are in exact integers here: what `rate_limiter_available` reports can be read
without debt, and a debt is paid once the advised wait is over.
-/

set_option autoImplicit false

namespace ThrottleVpn.Limiter

open Foundation

def Clocked.exactStep (state : Clocked) : Op → Clocked
  | .update bytesPerSecond => { state with limiter := state.limiter.update bytesPerSecond }
  | .poll call => ⟨state.limiter.poll id call, call.reading⟩

namespace RateLimiter

theorem refill_unlimited {limiter : RateLimiter} (unlimited : limiter.ratePerSec = 0) (now : Int) :
    limiter.refill id now = limiter := by
  unfold refill
  apply if_neg
  simp [unlimited]

end RateLimiter

structure Kept (state : Clocked) : Prop where
  rateNonneg : 0 ≤ state.limiter.ratePerSec
  rateFits : Fits state.limiter.ratePerSec
  capacity : state.limiter.capacity = RateLimiter.burst state.limiter.ratePerSec
  tokensLe : state.limiter.tokens ≤ state.limiter.capacity
  lastLe : state.limiter.lastRefillNs ≤ state.clock
  lastFits : Fits state.limiter.lastRefillNs

theorem kept_start {rate now : Int} (rateNonneg : 0 ≤ rate) (rateFits : Fits rate) (nowFits : Fits now) :
    Kept (.start rate now) :=
  ⟨rateNonneg, rateFits, rfl, le_rfl, le_rfl, nowFits⟩

section
variable {state : Clocked} (kept : Kept state)
include kept

theorem Kept.refill {now : Int} (later : state.clock ≤ now) (nowFits : Fits now) :
    Kept ⟨state.limiter.refill id now, now⟩ := by
  have started := kept.lastLe.trans later
  have lastLow := kept.lastFits.1
  have nowHigh := nowFits.2
  rcases kept.rateNonneg.eq_or_lt with unlimited | ratePos
  · rw [RateLimiter.refill_unlimited unlimited.symm]
    exact ⟨kept.rateNonneg, kept.rateFits, kept.capacity, kept.tokensLe, started, kept.lastFits⟩
  · have lastGe := RateLimiter.refill_last_ge ratePos started
    have lastLe := RateLimiter.refill_last_le ratePos started
    refine ⟨?_, ?_, ?_, ?_, lastLe, ?_⟩
    · simpa using kept.rateNonneg
    · simpa using kept.rateFits
    · simpa using kept.capacity
    · simp only [RateLimiter.refill_capacity]
      rw [RateLimiter.refill_tokens ratePos kept.tokensLe started]
      exact min_le_left ..
    · constructor
      · exact lastLow.trans lastGe
      · exact lastLe.trans_lt nowHigh

theorem Kept.step {op : Op} (valid : op.Valid state) : Kept (state.exactStep op) := by
  cases op with
  | update rate =>
    refine ⟨valid.1, valid.2, rfl, ?_, kept.lastLe, kept.lastFits⟩
    simp only [Clocked.exactStep, RateLimiter.update]
    split <;> omega
  | poll call =>
    obtain ⟨later, nowFits, sized⟩ := valid
    have refilled := kept.refill later nowFits
    have costNonneg := (Call.cost_bounds sized).1
    have tokensLe := refilled.tokensLe
    refine ⟨?_, ?_, ?_, ?_, ?_, ?_⟩
    · simpa [Clocked.exactStep] using kept.rateNonneg
    · simpa [Clocked.exactStep] using kept.rateFits
    · simpa [Clocked.exactStep] using kept.capacity
    · simp only [Clocked.exactStep, RateLimiter.poll_tokens, RateLimiter.poll_capacity]
      simp only [RateLimiter.refill_capacity] at tokensLe
      omega
    · simp only [Clocked.exactStep, RateLimiter.poll_lastRefillNs]
      exact refilled.lastLe
    · simp only [Clocked.exactStep, RateLimiter.poll_lastRefillNs]
      exact refilled.lastFits

end

theorem kept_run {rate start : Int} {ops : List Op} (rateNonneg : 0 ≤ rate) (rateFits : Fits rate)
    (startFits : Fits start) (valid : Admits Clocked.exactStep (fun state op => op.Valid state) (.start rate start) ops) :
    Kept (ops.foldl Clocked.exactStep (.start rate start)) :=
  valid.invariant Kept (fun _ _ kept valid => kept.step valid) (kept_start rateNonneg rateFits startFits)

/-! ### Reading what is available -/

namespace RateLimiter

/-- Whatever it costs, a read of what was available passes at once and leaves no debt. -/
def ReadsFreely (limiter : RateLimiter) (first second bytes : Int) : Prop :=
  let (observed, _) := limiter.available wrap first
  ∀ isSmall, (observed.consume wrap second bytes isSmall).2 = 0 ∧
    0 ≤ (observed.consume wrap second bytes isSmall).1.tokens

end RateLimiter

theorem Kept.reads_freely {state : Clocked} (kept : Kept state) (stored : Fits state.limiter.tokens)
    (ratePos : 0 < state.limiter.ratePerSec) {first second bytes : Int} (later : state.clock ≤ first)
    (ordered : first ≤ second) (firstFits : state.limiter.RefillFits first)
    (secondFits : (state.limiter.available wrap first).1.RefillFits second) (bytesPos : 1 ≤ bytes)
    (covered : bytes ≤ (state.limiter.available wrap first).2) :
    state.limiter.ReadsFreely first second bytes := by
  have formed : state.limiter.WellFormed :=
    ⟨ratePos, kept.rateFits, kept.capacity, kept.tokensLe, stored, kept.lastFits⟩
  have exactFirst := RateLimiter.refill_wrap_of_noOverflow
    (RateLimiter.noOverflow_of_product formed (kept.lastLe.trans later) firstFits.1 firstFits.2.2)
  have observed := kept.refill later firstFits.1
  unfold RateLimiter.ReadsFreely
  unfold RateLimiter.available at secondFits covered ⊢
  dsimp only at secondFits covered ⊢
  rw [exactFirst] at secondFits covered ⊢
  generalize same : state.limiter.refill id first = limiter at *
  have ratePos' : 0 < limiter.ratePerSec := by rwa [← same, RateLimiter.refill_ratePerSec]
  have high : limiter.capacity ≤ 2 ^ 63 / 50 := by
    have rateHigh := observed.rateFits.2
    rw [observed.capacity, RateLimiter.burst_eq_max ratePos'.le]
    simp only at rateHigh ⊢
    omega
  have tokensLe : limiter.tokens ≤ limiter.capacity := observed.tokensLe
  have formed' : limiter.WellFormed :=
    ⟨ratePos', observed.rateFits, observed.capacity, tokensLe, ⟨by omega, by omega⟩, observed.lastFits⟩
  have started : limiter.lastRefillNs ≤ second := observed.lastLe.trans ordered
  have exactSecond := RateLimiter.refill_wrap_of_noOverflow
    (RateLimiter.noOverflow_of_product formed' started secondFits.1 secondFits.2.2)
  -- the second refill only adds to what the first one showed
  have grown := RateLimiter.tokens_le_refill ratePos' tokensLe started
  have capped : (limiter.refill id second).tokens ≤ limiter.capacity := by
    rw [RateLimiter.refill_tokens ratePos' tokensLe started]
    exact min_le_left ..
  intro isSmall
  have discount := RateLimiter.cost_le bytesPos isSmall
  have costNonneg := RateLimiter.cost_nonneg (show 0 ≤ bytes by omega) isSmall
  constructor
  · simp only [RateLimiter.consume, RateLimiter.advisedWait, exactSecond]
    exact if_pos (by omega)
  · simp only [RateLimiter.consume, RateLimiter.charge, exactSecond]
    rw [wrap_of_fits ⟨by omega, by omega⟩]
    omega

/-- In every state of every run, a read of at most what `rate_limiter_available` reports
passes without a wait and leaves no debt, at either cost. -/
theorem paced_read_leaves_no_debt (rate start : Int) (ops : List Op) (first second bytes : Int)
    (rateNonneg : 0 ≤ rate) (rateFits : Fits rate) (startFits : Fits start)
    (valid : Admits Clocked.exactStep (fun state op => op.Valid state) (.start rate start) ops) :
    let state := ops.foldl Clocked.exactStep (.start rate start)
    Fits state.limiter.tokens → 0 < state.limiter.ratePerSec → state.clock ≤ first → first ≤ second →
      state.limiter.RefillFits first → (state.limiter.available wrap first).1.RefillFits second →
        1 ≤ bytes → bytes ≤ min (state.limiter.available wrap first).2 65535 →
          state.limiter.ReadsFreely first second bytes := by
  intro state stored ratePos later ordered firstFits secondFits bytesPos covered
  have kept := kept_run rateNonneg rateFits startFits valid
  exact kept.reads_freely stored ratePos later ordered firstFits secondFits bytesPos
    (covered.trans (min_le_left ..))

theorem paced_read_leaves_no_debt_sample :
    let ops : List Op := [.update 125000, .poll (.consume 5 2000 false)]
    (ops.foldl Clocked.exactStep (.start 1000000000 0)).limiter.ReadsFreely 1000 2000000 500 :=
  paced_read_leaves_no_debt 1000000000 0 [.update 125000, .poll (.consume 5 2000 false)] 1000 2000000 500
    (by decide) (by decide) (by decide) (by decide) (by decide) (by decide) (by decide) (by decide) (by decide)
    (by decide) (by decide) (by decide)

/-! ### Waiting as advised -/

namespace RateLimiter

theorem advisedWait_long {limiter : RateLimiter} {cost : Int} (ratePos : 0 < limiter.ratePerSec)
    (long : 0 < limiter.advisedWait id cost) (short : limiter.advisedWait id cost < 50000) :
    0 < cost - limiter.tokens ∧
      limiter.advisedWait id cost = (cost - limiter.tokens) * 1000000 / limiter.ratePerSec := by
  unfold advisedWait at long short ⊢
  by_cases enough : cost ≤ limiter.tokens
  · rw [if_pos enough] at long
    exact absurd long (lt_irrefl 0)
  · have quotient := Int.tdiv_eq_ediv_of_nonneg (b := limiter.ratePerSec)
      (show 0 ≤ (cost - limiter.tokens) * 1000000 by omega)
    simp only [if_neg enough, if_pos ratePos, id, quotient] at long short ⊢
    refine ⟨by omega, ?_⟩
    split at long
    · exact absurd long (lt_irrefl 0)
    next noticeable =>
      rw [if_neg noticeable] at short ⊢
      split at short
      · omega
      next uncut => rw [if_neg uncut]

/-- An advised wait is no longer than the deficit takes at the rate, and after it at most
a microsecond of the rate and a token are left of the debt. -/
def WaitPays (limiter : RateLimiter) (now bytes : Int) (isSmall : Bool) (later : Int) : Prop :=
  let (charged, wait) := limiter.consume id now bytes isSmall
  wait * limiter.ratePerSec ≤ (cost bytes isSmall - (limiter.refill id now).tokens) * 1000000 ∧
    -(limiter.ratePerSec + 1000000) < (charged.available id later).2 * 1000000

end RateLimiter

theorem Kept.wait_pays {state : Clocked} (kept : Kept state) (ratePos : 0 < state.limiter.ratePerSec)
    {now bytes later : Int} {isSmall : Bool} (ordered : state.clock ≤ now)
    (long : 2000 ≤ (state.limiter.consume id now bytes isSmall).2)
    (short : (state.limiter.consume id now bytes isSmall).2 < 50000)
    (waited : now + 1000 * (state.limiter.consume id now bytes isSmall).2 ≤ later) :
    state.limiter.WaitPays now bytes isSmall later := by
  have started := kept.lastLe.trans ordered
  have lastLe := RateLimiter.refill_last_le ratePos started
  have capacity : 1500 ≤ state.limiter.capacity := kept.capacity ▸ RateLimiter.burst_ge _
  unfold RateLimiter.WaitPays
  simp only [RateLimiter.consume] at long short waited ⊢
  generalize same : state.limiter.refill id now = limiter at *
  have rate : limiter.ratePerSec = state.limiter.ratePerSec := by rw [← same, RateLimiter.refill_ratePerSec]
  have cap : limiter.capacity = state.limiter.capacity := by rw [← same, RateLimiter.refill_capacity]
  rw [← rate] at ratePos ⊢
  obtain ⟨deficitPos, waitEq⟩ := RateLimiter.advisedWait_long ratePos (by omega) short
  generalize limiter.advisedWait id (RateLimiter.cost bytes isSmall) = wait at *
  have exact := Int.ediv_mul_le ((RateLimiter.cost bytes isSmall - limiter.tokens) * 1000000) ratePos.ne'
  have floor := Int.lt_ediv_add_one_mul_self
    ((RateLimiter.cost bytes isSmall - limiter.tokens) * 1000000) ratePos
  rw [← waitEq] at exact floor
  refine ⟨exact, ?_⟩
  have reading := @RateLimiter.refill_tokens (limiter.charge id (RateLimiter.cost bytes isSmall)) later
    ratePos (by simp only [RateLimiter.charge, id]; omega)
    (by simp only [RateLimiter.charge]; omega)
  -- the time waited earns the deficit but for a microsecond of the rate, rounded down
  have enough := earned_mono ratePos (show (0 : Int) < 1000000000 by decide)
    (show 1000 * wait ≤ later - limiter.lastRefillNs by omega)
  have token := Int.lt_ediv_add_one_mul_self (1000 * wait * limiter.ratePerSec)
    (show (0 : Int) < 1000000000 by decide)
  have paid : (RateLimiter.cost bytes isSmall - limiter.tokens) * 1000000 - limiter.ratePerSec - 1000000 <
      earned limiter.ratePerSec 1000000000 (1000 * wait) * 1000000 := by
    unfold earned
    rw [Int.add_mul, Int.one_mul] at floor
    rw [Int.mul_assoc] at token ⊢
    generalize wait * limiter.ratePerSec = product at *
    omega
  unfold RateLimiter.balance at reading
  simp only [RateLimiter.available, RateLimiter.charge, id] at reading ⊢
  rw [reading, rate]
  rw [rate] at paid enough
  omega

/-- In every state of every run, a wait that is advised without being cut off is no longer
than needed, and pays the debt but for a microsecond of the rate and a token. -/
theorem advised_wait_suffices (rate start : Int) (ops : List Op) (now bytes later : Int) (isSmall : Bool)
    (rateNonneg : 0 ≤ rate) (rateFits : Fits rate) (startFits : Fits start)
    (valid : Admits Clocked.exactStep (fun state op => op.Valid state) (.start rate start) ops) :
    let state := ops.foldl Clocked.exactStep (.start rate start)
    0 < state.limiter.ratePerSec → state.clock ≤ now →
      2000 ≤ (state.limiter.consume id now bytes isSmall).2 →
        (state.limiter.consume id now bytes isSmall).2 < 50000 →
          now + 1000 * (state.limiter.consume id now bytes isSmall).2 ≤ later →
            state.limiter.WaitPays now bytes isSmall later := by
  intro state ratePos ordered long short waited
  exact (kept_run rateNonneg rateFits startFits valid).wait_pays ratePos ordered long short waited

theorem advised_wait_suffices_sample :
    let ops : List Op := [.update 125000, .poll (.consume 5 2000 false)]
    (ops.foldl Clocked.exactStep (.start 1000000000 0)).limiter.WaitPays 1000 1500 false 10000000 :=
  advised_wait_suffices 1000000000 0 [.update 125000, .poll (.consume 5 2000 false)] 1000 1500 10000000 false
    (by decide) (by decide) (by decide) (by decide) (by decide) (by decide) (by decide) (by decide) (by decide)

end ThrottleVpn.Limiter
