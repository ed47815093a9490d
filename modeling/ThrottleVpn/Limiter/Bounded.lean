import ThrottleVpn.Foundation.Runs
import ThrottleVpn.Limiter.Drift

/-! What the compiled bucket keeps over every run.

Rates, packet sizes and clock readings are arbitrary 64-bit values of their
kind, and all arithmetic wraps. A refill keeps the bucket within its capacity and
its clock behind the real one even when its product wraps; only the charge, which
nothing stops at rate 0, can leave the word.
-/

set_option autoImplicit false

namespace ThrottleVpn.Limiter

open Foundation

inductive Op where
  | update (bytesPerSecond : Int)
  | poll (call : Call)
  deriving DecidableEq, Repr

structure Clocked where
  limiter : RateLimiter
  clock : Int
  deriving DecidableEq, Repr

namespace Clocked

def start (bytesPerSecond now : Int) : Clocked := ⟨.init bytesPerSecond now, now⟩

def step (state : Clocked) : Op → Clocked
  | .update bytesPerSecond => { state with limiter := state.limiter.update bytesPerSecond }
  | .poll call => ⟨state.limiter.poll wrap call, call.reading⟩

end Clocked

def Call.Sized : Call → Prop
  | .consume _ bytes _ => 1 ≤ bytes ∧ bytes ≤ 65535
  | .available _ => True

instance (call : Call) : Decidable call.Sized := by
  cases call <;> unfold Call.Sized <;> infer_instance

def Op.Valid (state : Clocked) : Op → Prop
  | .update bytesPerSecond => 0 ≤ bytesPerSecond ∧ Fits bytesPerSecond
  | .poll call => state.clock ≤ call.reading ∧ Fits call.reading ∧ call.Sized

/-- No charge takes the token count below the smallest 64-bit value. -/
def Op.Stored (state : Clocked) : Op → Prop
  | .update _ => True
  | .poll call => -2 ^ 63 ≤ (state.limiter.refill wrap call.reading).tokens - call.cost

instance (state : Clocked) (op : Op) : Decidable (op.Valid state) := by
  cases op <;> unfold Op.Valid <;> infer_instance

instance (state : Clocked) (op : Op) : Decidable (op.Stored state) := by
  cases op <;> unfold Op.Stored <;> infer_instance

theorem Call.cost_bounds {call : Call} (sized : call.Sized) : 0 ≤ call.cost ∧ call.cost ≤ 65535 := by
  cases call with
  | consume now bytes isSmall =>
    have lower := RateLimiter.cost_nonneg (show 0 ≤ bytes by have := sized.1; omega) isSmall
    have upper := RateLimiter.cost_le sized.1 isSmall
    exact ⟨lower, upper.trans sized.2⟩
  | available now => simp [Call.cost]

structure Bounded (state : Clocked) : Prop where
  rateNonneg : 0 ≤ state.limiter.ratePerSec
  rateFits : Fits state.limiter.ratePerSec
  capacity : state.limiter.capacity = max 1500 (state.limiter.ratePerSec / 50)
  tokensLe : state.limiter.tokens ≤ state.limiter.capacity
  tokensFits : Fits state.limiter.tokens
  lastLe : state.limiter.lastRefillNs ≤ state.clock
  lastFits : Fits state.limiter.lastRefillNs

theorem bounded_start {rate now : Int} (rateNonneg : 0 ≤ rate) (rateFits : Fits rate)
    (nowFits : Fits now) : Bounded (.start rate now) := by
  have burst := RateLimiter.burst_eq_max rateNonneg
  have rateHigh := rateFits.2
  refine ⟨rateNonneg, rateFits, burst, le_rfl, ?_, le_rfl, nowFits⟩
  simp only [Clocked.start, RateLimiter.init, burst]
  constructor <;> omega

section
variable {state : Clocked} (bounded : Bounded state)
include bounded

/-- Whether or not the product wraps, a refill credits tokens up to the capacity
and moves the bucket's clock forward, but not past the reading. -/
theorem Bounded.refill {now : Int} (later : state.clock ≤ now) (nowFits : Fits now) :
    let refilled := state.limiter.refill wrap now
    state.limiter.tokens ≤ refilled.tokens ∧ refilled.tokens ≤ state.limiter.capacity ∧
      refilled.lastRefillNs ≤ now ∧ Fits refilled.lastRefillNs := by
  obtain ⟨rateNonneg, ⟨-, rateHigh⟩, capacity, tokensLe, ⟨tokensLow, -⟩, lastLe, ⟨lastLow, lastHigh⟩⟩ := bounded
  have reached := lastLe.trans later
  have elapsedLe := wrap_le (show 0 ≤ now - state.limiter.lastRefillNs by omega)
  have unchanged : state.limiter.tokens ≤ state.limiter.tokens ∧
      state.limiter.tokens ≤ state.limiter.capacity ∧ state.limiter.lastRefillNs ≤ now ∧
      Fits state.limiter.lastRefillNs := ⟨le_rfl, tokensLe, reached, lastLow, lastHigh⟩
  unfold RateLimiter.refill
  dsimp only
  split
  next busy =>
    split
    next some =>
      -- a wrapped product that still credits tokens is below the true one
      have productLe := wrap_le (Int.mul_nonneg busy.1.le rateNonneg)
      have productHigh := (wrap_fits
        (wrap (now - state.limiter.lastRefillNs) * state.limiter.ratePerSec)).2
      generalize wrap (wrap (now - state.limiter.lastRefillNs) * state.limiter.ratePerSec) = product
        at some productLe productHigh ⊢
      have productPos : 0 ≤ product := by
        by_contra negative
        have opposite := Int.tdiv_nonneg (show 0 ≤ -product by omega) (show (0 : Int) ≤ 1000000000 by decide)
        rw [Int.neg_tdiv] at opposite
        omega
      rw [Int.tdiv_eq_ediv_of_nonneg productPos] at some ⊢
      rw [wrap_of_fits (x := state.limiter.tokens + product / 1000000000) ⟨by omega, by omega⟩]
      split
      next full => exact ⟨tokensLe, le_rfl, le_rfl, nowFits⟩
      next room =>
        have back : (product / 1000000000 * 1000000000) / state.limiter.ratePerSec ≤
            now - state.limiter.lastRefillNs := by
          apply Int.ediv_le_of_le_mul busy.2
          calc product / 1000000000 * 1000000000 ≤ product := by omega
            _ ≤ wrap (now - state.limiter.lastRefillNs) * state.limiter.ratePerSec := productLe
            _ ≤ (now - state.limiter.lastRefillNs) * state.limiter.ratePerSec :=
              Int.mul_le_mul_of_nonneg_right elapsedLe rateNonneg
        have forward : 0 ≤ (product / 1000000000 * 1000000000) / state.limiter.ratePerSec :=
          Int.ediv_nonneg (by omega) rateNonneg
        rw [wrap_of_fits (x := product / 1000000000 * 1000000000) ⟨by omega, by omega⟩,
          Int.tdiv_eq_ediv_of_nonneg (show 0 ≤ product / 1000000000 * 1000000000 by omega),
          wrap_of_fits ⟨by omega, by have := nowFits.2; omega⟩]
        -- the clock moves forward, but not past the reading
        refine ⟨?_, ?_, ?_, ?_, ?_⟩
        · simp only
          omega
        · simp only
          omega
        · simp only
          omega
        · simp only
          omega
        · have := nowFits.2
          simp only
          omega
    next none => exact unchanged
  next idle => exact unchanged

theorem Bounded.poll_tokens {call : Call} (valid : (Op.poll call).Valid state)
    (stored : (Op.poll call).Stored state) :
    (state.limiter.poll wrap call).tokens =
        (state.limiter.refill wrap call.reading).tokens - call.cost ∧
      Fits (state.limiter.poll wrap call).tokens := by
  obtain ⟨later, nowFits, sized⟩ := valid
  obtain ⟨-, tokensLe, -, -⟩ := bounded.refill later nowFits
  have costNonneg := (Call.cost_bounds sized).1
  have high : state.limiter.capacity < 2 ^ 63 := by
    have rateHigh := bounded.rateFits.2
    rw [bounded.capacity]
    omega
  have fits : Fits ((state.limiter.refill wrap call.reading).tokens - call.cost) := ⟨stored, by omega⟩
  have charged : (state.limiter.poll wrap call).tokens =
      (state.limiter.refill wrap call.reading).tokens - call.cost := by
    cases call with
    | consume now bytes isSmall => exact wrap_of_fits fits
    | available now => exact (Int.sub_zero _).symm
  exact ⟨charged, charged ▸ fits⟩

theorem Bounded.step {op : Op} (valid : op.Valid state) (stored : op.Stored state) :
    Bounded (state.step op) := by
  cases op with
  | update rate =>
    obtain ⟨rateNonneg, rateFits⟩ := valid
    have burst := RateLimiter.burst_eq_max rateNonneg
    have rateHigh := rateFits.2
    obtain ⟨-, -, -, -, ⟨tokensLow, tokensHigh⟩, lastLe, lastFits⟩ := bounded
    refine ⟨rateNonneg, rateFits, burst, ?_, ?_, lastLe, lastFits⟩
    · -- a lower rate clamps the tokens
      simp only [Clocked.step, RateLimiter.update]
      split <;> omega
    · simp only [Clocked.step, RateLimiter.update, burst]
      split <;> constructor <;> omega
  | poll call =>
    obtain ⟨charged, tokensFits⟩ := bounded.poll_tokens valid stored
    obtain ⟨later, nowFits, sized⟩ := valid
    obtain ⟨-, tokensLe, lastLe, lastFits⟩ := bounded.refill later nowFits
    have costNonneg := (Call.cost_bounds sized).1
    have rate := RateLimiter.poll_ratePerSec wrap state.limiter call
    have capacity := RateLimiter.poll_capacity wrap state.limiter call
    have last := RateLimiter.poll_lastRefillNs wrap state.limiter call
    refine ⟨?_, ?_, ?_, ?_, tokensFits, ?_, ?_⟩
    · exact rate.symm ▸ bounded.rateNonneg
    · exact rate.symm ▸ bounded.rateFits
    · simp only [Clocked.step, rate, capacity]
      exact bounded.capacity
    · simp only [Clocked.step, capacity, charged]
      omega
    · exact last.symm ▸ lastLe
    · exact last.symm ▸ lastFits

end

def burstLimit (limiter : RateLimiter) : Int := max 1500 (limiter.ratePerSec / 50)

/-- What a caller of the limiter can rely on. -/
structure Contract (state : Clocked) : Prop where
  capacity : state.limiter.capacity = burstLimit state.limiter
  tokens : state.limiter.tokens ≤ state.limiter.capacity
  clock : state.limiter.lastRefillNs ≤ state.clock
  reports : ∀ now, (Op.poll (.available now)).Valid state →
    (state.limiter.available wrap now).2 ≤ burstLimit state.limiter
  passes : ∀ now bytes isSmall, (Op.poll (.consume now bytes isSmall)).Valid state →
    RateLimiter.cost bytes isSmall ≤ (state.limiter.refill wrap now).tokens →
    RateLimiter.cost bytes isSmall ≤ burstLimit state.limiter ∧
      ((isSmall = true → bytes ≤ 128) → bytes ≤ burstLimit state.limiter)

theorem Bounded.contract {state : Clocked} (bounded : Bounded state) : Contract state where
  capacity := bounded.capacity
  tokens := bounded.tokensLe
  clock := bounded.lastLe
  reports now valid := by
    have refilled := (bounded.refill valid.1 valid.2.1).2.1
    rw [bounded.capacity] at refilled
    exact refilled
  passes now bytes isSmall valid passed := by
    have refilled := (bounded.refill valid.1 valid.2.1).2.1
    rw [bounded.capacity] at refilled
    refine ⟨passed.trans refilled, fun small => ?_⟩
    cases isSmall with
    | true => exact (small rfl).trans (le_trans (by decide) (le_max_left 1500 _))
    | false => exact passed.trans refilled

/-- After any run of updates and calls whose charges stay in the 64-bit word, the
capacity is the burst of the current rate and nothing exceeds it. -/
theorem contract_run (rate now : Int) (ops : List Op) (rateNonneg : 0 ≤ rate) (rateFits : Fits rate)
    (nowFits : Fits now)
    (admits : Admits Clocked.step (fun state op => op.Valid state ∧ op.Stored state)
      (.start rate now) ops) :
    Contract (ops.foldl Clocked.step (.start rate now)) := by
  have bounded := admits.invariant Bounded (fun _ _ bounded allowed => bounded.step allowed.1 allowed.2)
    (bounded_start rateNonneg rateFits nowFits)
  exact bounded.contract

theorem contract_run_lowered :
    let ops : List Op := [.poll (.consume 5 60000 false), .update 0, .poll (.available 1000000000000),
      .update 50000, .poll (.consume 1000000000007 64 true)]
    Contract (ops.foldl Clocked.step (.start 1000000000 0)) :=
  contract_run 1000000000 0 _ (by decide) (by decide) (by decide) (by decide)

theorem unpaid_debt (count : Nat) (fits : 65535 * (count : Int) ≤ 1500 + 2 ^ 63) :
    (List.replicate count (Op.poll (.consume 0 65535 false))).foldl Clocked.step (.start 0 0) =
      ⟨⟨1500 - 65535 * count, 1500, 0, 0⟩, 0⟩ := by
  induction count with
  | zero => rfl
  | succ count ih =>
    push_cast at fits ⊢
    rw [List.replicate_succ', List.foldl_append, ih (by omega)]
    have stored : wrap (1500 - 65535 * (count : Int) - 65535) = 1500 - 65535 * ((count : Int) + 1) := by
      rw [wrap_of_fits ⟨by omega, by omega⟩]
      omega
    exact congrArg (fun tokens => Clocked.mk ⟨tokens, 1500, 0, 0⟩ 0) stored

theorem admits_replicate {state : Clocked} (started : state.clock ≤ 0) (count : Nat) :
    Admits Clocked.step (fun state op => op.Valid state) state
      (List.replicate count (.poll (.consume 0 65535 false))) := by
  induction count generalizing state with
  | zero => trivial
  | succ count ih => exact ⟨⟨started, by decide, by decide⟩, ih le_rfl⟩

/-- After 1.4 * 10^14 full packets at rate 0 the debt wraps into a credit. -/
theorem debt_wraps_into_credit :
    let ops := List.replicate 140739635871745 (Op.poll (.consume 0 65535 false))
    Admits Clocked.step (fun state op => op.Valid state) (.start 0 0) ops ∧
      ¬ Contract (ops.foldl Clocked.step (.start 0 0)) := by
  intro ops
  refine ⟨admits_replicate le_rfl _, fun contract => ?_⟩
  have last : ops.foldl Clocked.step (.start 0 0) =
      ⟨⟨wrap (1500 - 65535 * 140739635871744 - 65535), 1500, 0, 0⟩, 0⟩ := by
    have before := unpaid_debt 140739635871744 (by norm_num)
    simp only [ops]
    rw [List.replicate_succ', List.foldl_append, before]
    rfl
  have tokens := contract.tokens
  rw [last] at tokens
  exact absurd tokens (by decide)

end ThrottleVpn.Limiter
