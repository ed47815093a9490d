import ThrottleVpn.Limiter.RateLimiter
import Mathlib.Data.List.Induction

/-! How far the credited tokens drift from the elapsed time.

A refill divides twice: tokens from time, then time back from the tokens. What
the first division drops stays on the clock, and what the second one drops is
less than one nanosecond for each call, however often the bucket is polled.
-/

set_option autoImplicit false

namespace ThrottleVpn.Limiter

open Foundation

/-- A call that refills the bucket, with the clock reading it makes. -/
inductive Call where
  | consume (now bytes : Int) (isSmall : Bool)
  | available (now : Int)
  deriving DecidableEq, Repr

def Call.reading : Call → Int
  | .consume now _ _ => now
  | .available now => now

def Call.cost : Call → Int
  | .consume _ bytes isSmall => RateLimiter.cost bytes isSmall
  | .available _ => 0

def RateLimiter.poll (word : Int → Int) (limiter : RateLimiter) : Call → RateLimiter
  | .consume now bytes isSmall => (limiter.consume word now bytes isSmall).1
  | .available now => (limiter.available word now).1

/-- A bucket in exact arithmetic with its accounts: the last clock reading, the
tokens its refills put in, the cost charged, and whether a refill ever filled it. -/
structure Meter where
  limiter : RateLimiter
  now : Int
  credited : Int
  charged : Int
  filled : Bool
  deriving DecidableEq, Repr

namespace Meter

def start (limiter : RateLimiter) : Meter := ⟨limiter, limiter.lastRefillNs, 0, 0, false⟩

def step (meter : Meter) (call : Call) : Meter :=
  let refilled := meter.limiter.refill id call.reading
  { limiter := meter.limiter.poll id call
    now := call.reading
    credited := meter.credited + (refilled.tokens - meter.limiter.tokens)
    charged := meter.charged + call.cost
    filled := meter.filled || decide (refilled ≠ meter.limiter ∧ refilled.capacity ≤ refilled.tokens) }

end Meter

namespace RateLimiter

theorem refill_early {limiter : RateLimiter} {now : Int} (early : now < limiter.lastRefillNs) :
    limiter.refill id now = limiter := by
  unfold refill
  apply if_neg
  simp only [id]
  omega

@[simp] theorem poll_ratePerSec (word : Int → Int) (limiter : RateLimiter) (call : Call) :
    (limiter.poll word call).ratePerSec = limiter.ratePerSec := by
  cases call with
  | consume now bytes isSmall => exact consume_ratePerSec word limiter now bytes isSmall
  | available now => exact refill_ratePerSec word limiter now

@[simp] theorem poll_capacity (word : Int → Int) (limiter : RateLimiter) (call : Call) :
    (limiter.poll word call).capacity = limiter.capacity := by
  cases call <;> exact refill_capacity word limiter _

theorem poll_lastRefillNs (word : Int → Int) (limiter : RateLimiter) (call : Call) :
    (limiter.poll word call).lastRefillNs = (limiter.refill word call.reading).lastRefillNs := by
  cases call <;> rfl

theorem poll_tokens (limiter : RateLimiter) (call : Call) :
    (limiter.poll id call).tokens = (limiter.refill id call.reading).tokens - call.cost := by
  cases call with
  | consume now bytes isSmall => rfl
  | available now => exact (Int.sub_zero _).symm

end RateLimiter

/-- What the accounts of a bucket satisfy `count` calls after `initial`. -/
structure Accounts (initial : RateLimiter) (count : Nat) (meter : Meter) : Prop where
  rate : meter.limiter.ratePerSec = initial.ratePerSec
  balanced : meter.charged = initial.tokens - meter.limiter.tokens + meter.credited
  clock : meter.limiter.lastRefillNs = initial.lastRefillNs ∨ meter.limiter.lastRefillNs ≤ meter.now
  upper : meter.credited * 1000000000 ≤
    initial.ratePerSec * (meter.limiter.lastRefillNs - initial.lastRefillNs + count)
  owed : meter.filled = false → ∀ later,
    earned initial.ratePerSec 1000000000 (later - initial.lastRefillNs) ≤
      meter.credited + earned initial.ratePerSec 1000000000 (later - meter.limiter.lastRefillNs)
  paid : meter.filled = false → initial.lastRefillNs ≤ meter.now →
    earned initial.ratePerSec 1000000000 (meter.now - initial.lastRefillNs) ≤ meter.credited

theorem accounts_start (initial : RateLimiter) : Accounts initial 0 (.start initial) where
  rate := rfl
  balanced := by simp [Meter.start]
  clock := .inl rfl
  upper := by simp [Meter.start]
  owed := by simp [Meter.start]
  paid := by simp [Meter.start, earned]

section
variable {initial : RateLimiter} {count : Nat} {meter : Meter}

theorem Accounts.post (accounts : Accounts initial count meter) {call : Call} (gain last : Int)
    (gained : (meter.limiter.refill id call.reading).tokens = meter.limiter.tokens + gain)
    (moved : (meter.limiter.refill id call.reading).lastRefillNs = last)
    (clock : last = initial.lastRefillNs ∨ last ≤ call.reading)
    (atMost : gain * 1000000000 ≤ initial.ratePerSec * (last - meter.limiter.lastRefillNs + 1))
    (owed : (meter.step call).filled = false → ∀ later,
      earned initial.ratePerSec 1000000000 (later - meter.limiter.lastRefillNs) ≤
        gain + earned initial.ratePerSec 1000000000 (later - last))
    (paid : (meter.step call).filled = false → initial.lastRefillNs ≤ call.reading →
      earned initial.ratePerSec 1000000000 (call.reading - meter.limiter.lastRefillNs) ≤ gain) :
    Accounts initial (count + 1) (meter.step call) := by
  have credited : (meter.step call).credited = meter.credited + gain := by
    simp only [Meter.step, gained]
    omega
  have stands : (meter.step call).limiter.lastRefillNs = last :=
    (RateLimiter.poll_lastRefillNs id meter.limiter call).trans moved
  have before : (meter.step call).filled = false → meter.filled = false := by
    simp only [Meter.step, Bool.or_eq_false_iff]
    exact And.left
  have upper := accounts.upper
  have balanced := accounts.balanced
  refine ⟨?_, ?_, ?_, ?_, ?_, ?_⟩
  · exact (RateLimiter.poll_ratePerSec id meter.limiter call).trans accounts.rate
  · rw [credited]
    simp only [Meter.step, RateLimiter.poll_tokens, gained]
    omega
  · rw [stands]
    exact clock
  · rw [credited, stands]
    push_cast
    linarith
  · intro room later
    have earlier := accounts.owed (before room) later
    have rest := owed room later
    rw [credited, stands]
    omega
  · intro room started
    have earlier := accounts.owed (before room) call.reading
    have rest := paid room started
    rw [credited]
    change earned _ _ (call.reading - _) ≤ _
    omega

/-- One more call at a reading that is not before the last one keeps the accounts. -/
theorem Accounts.step (accounts : Accounts initial count meter) (ratePos : 0 < initial.ratePerSec)
    {call : Call}
    (timed : meter.limiter.lastRefillNs = initial.lastRefillNs ∨
      meter.limiter.lastRefillNs ≤ call.reading) :
    Accounts initial (count + 1) (meter.step call) := by
  have rate := accounts.rate
  have perPos : (0 : Int) < 1000000000 := by decide
  by_cases started : meter.limiter.lastRefillNs ≤ call.reading
  · rcases RateLimiter.refill_cases (rate.symm ▸ ratePos) started with
      ⟨same, nothing⟩ | ⟨same, full⟩ | ⟨same, room⟩
    · -- no whole token was earned
      have none : earned initial.ratePerSec 1000000000
          (call.reading - meter.limiter.lastRefillNs) = 0 := by
        unfold RateLimiter.balance at nothing
        rw [rate] at nothing
        omega
      apply accounts.post 0 meter.limiter.lastRefillNs
      · rw [same, Int.add_zero]
      · rw [same]
      · exact timed
      · omega
      · intro _ later
        omega
      · intro _ _
        exact none.le
    · -- the bucket is full, and the clock moves to the reading
      unfold RateLimiter.balance at full
      rw [rate] at full
      have product : earned initial.ratePerSec 1000000000 (call.reading - meter.limiter.lastRefillNs) *
          1000000000 ≤ (call.reading - meter.limiter.lastRefillNs) * initial.ratePerSec :=
        Int.ediv_mul_le _ perPos.ne'
      have stays : (meter.step call).filled = false →
          meter.limiter = { meter.limiter with
            tokens := meter.limiter.capacity, lastRefillNs := call.reading } := by
        simp only [Meter.step, same, Bool.or_eq_false_iff, decide_eq_false_iff_not, not_and]
        intro filled
        by_contra moved
        exact filled.2 (fun back => moved back.symm) le_rfl
      apply accounts.post (meter.limiter.capacity - meter.limiter.tokens) call.reading
      · rw [same]
        change meter.limiter.capacity = _
        omega
      · rw [same]
      · exact .inr le_rfl
      · linarith
      · intro room later
        have now := congrArg RateLimiter.lastRefillNs (stays room)
        have tokens := congrArg RateLimiter.tokens (stays room)
        simp only at now tokens
        rw [now]
        omega
      · intro room _
        have now := congrArg RateLimiter.lastRefillNs (stays room)
        have tokens := congrArg RateLimiter.tokens (stays room)
        simp only at now tokens
        rw [now, Int.sub_self]
        simp only [earned, Int.zero_mul, Int.zero_ediv]
        omega
    · -- the earned tokens are credited, and the clock moves by the time they took
      have took := spent_earned_le ratePos perPos (call.reading - meter.limiter.lastRefillNs)
      have lost := @amount_le_spent _ 1000000000 ratePos
        (earned initial.ratePerSec 1000000000 (call.reading - meter.limiter.lastRefillNs))
      unfold RateLimiter.balance at same
      rw [rate] at same
      apply accounts.post
        (earned initial.ratePerSec 1000000000 (call.reading - meter.limiter.lastRefillNs))
        (meter.limiter.lastRefillNs + spent initial.ratePerSec 1000000000
          (earned initial.ratePerSec 1000000000 (call.reading - meter.limiter.lastRefillNs)))
      · rw [same]
      · rw [same]
      · right
        omega
      · linarith
      · intro _ later
        rw [← Int.sub_sub]
        exact earned_le_credit ratePos perPos _ _
      · intro _ _
        exact le_rfl
  · -- only the first readings can lie before the start of the bucket
    have early := RateLimiter.refill_early (Int.not_le.mp started)
    have initially := timed.resolve_right started
    apply accounts.post 0 meter.limiter.lastRefillNs
    · rw [early, Int.add_zero]
    · rw [early]
    · exact timed
    · omega
    · intro _ later
      omega
    · intro _ after
      omega

end

theorem accounts_run {initial : RateLimiter} (ratePos : 0 < initial.ratePerSec) (calls : List Call)
    (timed : (calls.map Call.reading).Pairwise (· ≤ ·)) :
    Accounts initial calls.length (calls.foldl Meter.step (.start initial)) := by
  induction calls using List.reverseRecOn with
  | nil => exact accounts_start initial
  | append_singleton calls call ih =>
    rw [List.map_append, List.pairwise_append] at timed
    obtain ⟨earlier, -, ordered⟩ := timed
    have accounts := ih earlier
    rw [List.foldl_append, List.length_append]
    apply accounts.step ratePos
    -- the first reading may lie anywhere, each later one follows the last
    rcases List.eq_nil_or_concat calls with rfl | ⟨before, last, rfl⟩
    · exact .inl rfl
    · apply accounts.clock.imp_right
      intro reached
      rw [List.concat_eq_append, List.foldl_append] at reached ⊢
      exact reached.trans (ordered last.reading (by simp) call.reading (by simp))

/-- Over every schedule of calls the credited tokens stay within one token-time of
each call above the elapsed time's worth, and below it only if the bucket was filled. -/
theorem credit_follows_time (limiter : RateLimiter) (calls : List Call)
    (ratePos : 0 < limiter.ratePerSec) (timed : (calls.map Call.reading).Pairwise (· ≤ ·)) :
    let final := calls.foldl Meter.step (.start limiter)
    limiter.lastRefillNs ≤ final.now →
    final.credited * 1000000000 ≤
        limiter.ratePerSec * (final.now - limiter.lastRefillNs + calls.length) ∧
      final.charged ≤ limiter.tokens - final.limiter.tokens +
        limiter.ratePerSec * (final.now - limiter.lastRefillNs + calls.length) / 1000000000 ∧
      (final.filled = false →
        limiter.ratePerSec * (final.now - limiter.lastRefillNs) / 1000000000 ≤ final.credited) := by
  intro final started
  have accounts := accounts_run ratePos calls timed
  have reached : final.limiter.lastRefillNs ≤ final.now := by
    rcases accounts.clock with same | before
    · exact same.trans_le started
    · exact before
  have upper : final.credited * 1000000000 ≤
      limiter.ratePerSec * (final.now - limiter.lastRefillNs + calls.length) :=
    calc final.credited * 1000000000
        ≤ limiter.ratePerSec * (final.limiter.lastRefillNs - limiter.lastRefillNs + calls.length) :=
          accounts.upper
      _ ≤ limiter.ratePerSec * (final.now - limiter.lastRefillNs + calls.length) :=
          Int.mul_le_mul_of_nonneg_left (by omega) ratePos.le
  refine ⟨upper, ?_, fun room => ?_⟩
  · have credit := Int.le_ediv_of_mul_le (by decide) upper
    have balanced : final.charged = limiter.tokens - final.limiter.tokens + final.credited :=
      accounts.balanced
    omega
  · rw [Int.mul_comm]
    exact accounts.paid room started

theorem credit_follows_time_polled :
    let final := [Call.available 1500000, .consume 2500000 1 false].foldl Meter.step
      (.start ⟨0, 1500, 1000, 0⟩)
    final.credited * 1000000000 ≤ 1000 * (final.now - 0 + 2) ∧
      final.charged ≤ 0 - final.limiter.tokens + 1000 * (final.now - 0 + 2) / 1000000000 ∧
      (final.filled = false → 1000 * (final.now - 0) / 1000000000 ≤ final.credited) :=
  credit_follows_time ⟨0, 1500, 1000, 0⟩ [.available 1500000, .consume 2500000 1 false]
    (by decide) (by decide) (by decide)

end ThrottleVpn.Limiter
