import Mathlib.Algebra.Order.Field.Rat
import Mathlib.Tactic.GCongr
import Mathlib.Tactic.Linarith
import Mathlib.Tactic.NormNum
import Mathlib.Tactic.Positivity
import ThrottleVpn.Foundation.Runs

/-! `SpeedTestManager`: a download and then an upload over four connections at a time.

Four workers count the bytes that they move and a ticker shows how fast they do. They
are children of the coroutine that measures: it cancels them when the time is up and
goes on once they have ended. A cancelled worker learns of it when it looks, and a
cancelled ticker in its delay. Progress and throughput are exact here: the rounding of
`Float` and `Double` is left out.
-/

set_option autoImplicit false

namespace ThrottleVpn.Speed

open Foundation

def bufferSize : Nat := 32768

def numThreads : Nat := 4

def testDurationMs : Nat := 8000

def chunkSize : Nat := 5000000

structure SpeedTestResult where
  downloadMbps : ℚ
  uploadMbps : ℚ
  deriving DecidableEq, Repr

inductive Phase where
  | measuring (isDownload : Bool)
  | live (isDownload : Bool) (mbps : ℚ)
  deriving DecidableEq, Repr

inductive SpeedTestState where
  | idle
  | testing (phase : Phase) (progress : ℚ)
  | complete (result : SpeedTestResult)
  | error (message : String)
  deriving DecidableEq, Repr

def SpeedTestState.progress? : SpeedTestState → Option ℚ
  | .testing _ progress => some progress
  | .idle | .complete _ | .error _ => none

/-! ### Workers -/

/-- How a blocking call on a connection ends. `read` returns -1 at the end. -/
inductive NetResult where
  | moved (count : Nat)
  | ended
  | failed
  deriving DecidableEq, Repr

/-- Where a worker is: at its loop, in `connect`, at the loop of a download or in its
`read`, at the loop of an upload, in its `write` or waiting for the answer. -/
inductive Worker where
  | looping
  | connecting
  | download
  | reading
  | upload (sent : Nat)
  | writing (sent : Nat)
  | acknowledging (sent : Nat)
  | gone
  deriving DecidableEq, Repr

namespace Worker

def chunk (sent : Nat) : Nat := min bufferSize (chunkSize - sent)

/-- The worker after its next call, and what it adds to the counter. A failure ends a
connection, and the loop opens another one. -/
def next (isDownload active : Bool) (result : NetResult) : Worker → Worker × Nat
  | looping => (if active then connecting else gone, 0)
  | connecting =>
    match result with
    | .failed => (looping, 0)
    | .moved _ | .ended => (if isDownload then download else upload 0, 0)
  | download => (if active then reading else looping, 0)
  | reading =>
    match result with
    | .moved count => (download, count)
    | .ended | .failed => (looping, 0)
  | upload sent => (if active ∧ sent < chunkSize then writing sent else acknowledging sent, 0)
  | writing sent =>
    match result with
    | .failed => (looping, 0)
    | .moved _ | .ended => (upload (sent + chunk sent), chunk sent)
  | acknowledging _ => (looping, 0)
  | gone => (gone, 0)

end Worker

/-! ### The test -/

inductive Ticker where
  | delaying (lastBytes : Nat)
  | publishing (lastBytes : Nat) (phase : Phase) (progress : ℚ)
  | gone
  deriving DecidableEq, Repr

def Ticker.coming? : Ticker → Option ℚ
  | .publishing _ _ progress => some progress
  | .delaying _ | .gone => none

/-- Where `runSpeedTest` is: in the delay of a measurement, behind the cancellation of
the children, waiting for them with a result or with an exception, or at its end. -/
inductive Main where
  | measuring
  | stopping
  | joining (mbps : ℚ)
  | unwinding
  | returned (result : SpeedTestResult)
  deriving DecidableEq, Repr

/-- `measured` is the result of the download once it is there, `cancelled` the state of
the caller's job, and `clock` the last reading of `nanoTime`. -/
structure SpeedTest where
  state : SpeedTestState
  main : Main
  measured : Option ℚ
  startTime : Int
  totalBytes : Nat
  workers : List Worker
  ticker : Ticker
  cancelled : Bool
  clock : Int
  deriving DecidableEq, Repr

inductive SpeedTestEvent where
  | worker (k : Nat) (result : NetResult)
  | tick (now : Int)
  | publish
  | tickerEnds
  | timeUp
  | average (now : Int)
  | throws
  | join (now : Int)
  | cancel
  | reset
  deriving DecidableEq, Repr

inductive Failure where
  | cancellation
  | other (message : String)
  deriving DecidableEq, Repr

namespace SpeedTestManager

def isDownload (measured : Option ℚ) : Bool := measured.isNone

def baseProgress (measured : Option ℚ) : ℚ := if isDownload measured then 0 else 1 / 2

def finalProgress (measured : Option ℚ) (startTime now : Int) : ℚ :=
  let elapsedSec : ℚ := (now - startTime : Int) / 1000000000
  let progress := max 0 (min 1 (elapsedSec / (testDurationMs / 1000)))
  baseProgress measured + progress * (1 / 2)

def liveMbps (diffBytes : Int) : ℚ := diffBytes * 8 / (1 / 4 * 1000000)

def finalMbps (totalBytes : Nat) (startTime now : Int) : ℚ :=
  let totalSec : ℚ := (now - startTime : Int) / 1000000000
  max 0 (totalBytes * 8 / (totalSec * 1000000))

def measureThroughput (measured : Option ℚ) (now : Int) (test : SpeedTest) : SpeedTest :=
  { test with
    main := .measuring
    measured := measured
    startTime := now
    totalBytes := 0
    workers := List.replicate numThreads .looping
    ticker := .delaying 0
    clock := now }

def runSpeedTest (now : Int) : SpeedTest :=
  measureThroughput none now
    ⟨.testing (.measuring true) 0, .measuring, none, now, 0, [], .gone, false, now⟩

def catches (failure : Failure) (test : SpeedTest) : SpeedTest :=
  let state :=
    match failure with
    | .cancellation => test.state
    | .other message => .error message
  { test with state := state, main := .returned ⟨0, 0⟩ }

end SpeedTestManager

open SpeedTestManager

namespace SpeedTest

def active (test : SpeedTest) : Bool := test.main = .measuring ∧ test.cancelled = false

def Childless (test : SpeedTest) : Prop := (∀ worker ∈ test.workers, worker = .gone) ∧ test.ticker = .gone

instance (test : SpeedTest) : Decidable test.Childless := inferInstanceAs (Decidable (_ ∧ _))

/-- The end of `coroutineScope`, which throws if the job was cancelled. -/
def joined (test : SpeedTest) (mbps : ℚ) (now : Int) : SpeedTest :=
  if test.cancelled then catches .cancellation test
  else
    match test.measured with
    | none => measureThroughput (some mbps) now { test with state := .testing (.measuring false) (1 / 2) }
    | some dl => { test with state := .complete ⟨dl, mbps⟩, main := .returned ⟨dl, mbps⟩ }

def step (test : SpeedTest) : SpeedTestEvent → SpeedTest
  | .worker k result =>
    match test.workers[k]? with
    | some worker =>
      let (moved, count) := worker.next (isDownload test.measured) test.active result
      { test with workers := test.workers.set k moved, totalBytes := test.totalBytes + count }
    | none => test
  | .tick now =>
    match test.ticker, test.active with
    | .delaying lastBytes, true =>
      let currentBytes := test.totalBytes
      let mbps := liveMbps (currentBytes - lastBytes)
      { test with
        ticker := .publishing currentBytes (.live (isDownload test.measured) mbps)
          (finalProgress test.measured test.startTime now)
        clock := now }
    | _, _ => test
  | .publish =>
    match test.ticker with
    | .publishing lastBytes phase progress =>
      { test with state := .testing phase progress, ticker := .delaying lastBytes }
    | .delaying _ | .gone => test
  | .tickerEnds =>
    match test.ticker, test.active with
    | .delaying _, false => { test with ticker := .gone }
    | _, _ => test
  | .timeUp => if test.active then { test with main := .stopping } else test
  | .average now =>
    match test.main with
    | .stopping =>
      { test with main := .joining (finalMbps test.totalBytes test.startTime now), clock := now }
    | _ => test
  | .throws => if test.main = .measuring ∧ test.cancelled then { test with main := .unwinding } else test
  | .join now =>
    if test.Childless then
      match test.main with
      | .joining mbps => test.joined mbps now
      | .unwinding => catches .cancellation test
      | .measuring | .stopping | .returned _ => test
    else test
  | .cancel => { test with cancelled := true }
  | .reset => { test with state := .idle }

def Forward (test : SpeedTest) : SpeedTestEvent → Prop
  | .tick now | .average now | .join now => test.clock ≤ now
  | .worker _ _ | .publish | .tickerEnds | .timeUp | .throws | .cancel | .reset => True

instance (test : SpeedTest) : (event : SpeedTestEvent) → Decidable (test.Forward event)
  | .tick now | .average now | .join now => inferInstanceAs (Decidable (test.clock ≤ now))
  | .worker _ _ | .publish | .tickerEnds | .timeUp | .throws | .cancel | .reset => inferInstanceAs (Decidable True)

end SpeedTest

/-! ### Progress -/

namespace SpeedTestManager

theorem baseProgress_range (measured : Option ℚ) : 0 ≤ baseProgress measured ∧ baseProgress measured ≤ 1 / 2 := by
  unfold baseProgress
  split <;> constructor <;> norm_num

theorem finalProgress_range (measured : Option ℚ) (startTime now : Int) :
    baseProgress measured ≤ finalProgress measured startTime now ∧
      finalProgress measured startTime now ≤ baseProgress measured + 1 / 2 := by
  unfold finalProgress
  dsimp only
  generalize (((now - startTime : Int) : ℚ) / 1000000000 / (testDurationMs / 1000)) = ratio
  have low : 0 ≤ max 0 (min 1 ratio) := le_max_left ..
  have high : max 0 (min 1 ratio) ≤ 1 := max_le (by norm_num) (min_le_left ..)
  constructor <;> linarith

theorem finalProgress_mono (measured : Option ℚ) (startTime : Int) {now later : Int} (forward : now ≤ later) :
    finalProgress measured startTime now ≤ finalProgress measured startTime later := by
  unfold finalProgress
  have elapsed : ((now - startTime : Int) : ℚ) ≤ (later - startTime : Int) := by
    exact_mod_cast Int.sub_le_sub_right forward startTime
  dsimp only
  gcongr

theorem finalProgress_start (measured : Option ℚ) (now : Int) :
    finalProgress measured now now = baseProgress measured := by
  simp [finalProgress]

end SpeedTestManager

namespace SpeedTest

def limit (test : SpeedTest) : ℚ :=
  match test.main with
  | .measuring | .stopping => finalProgress test.measured test.startTime test.clock
  | .joining _ => baseProgress test.measured + 1 / 2
  | .unwinding | .returned _ => 1

/-- Nothing below a value is shown, or is about to be. -/
structure Above (test : SpeedTest) (low : ℚ) : Prop where
  shown : ∀ progress ∈ test.state.progress?, low ≤ progress
  coming : ∀ progress ∈ test.ticker.coming?, low ≤ progress
  reached : low ≤ test.limit

structure Steady (test : SpeedTest) : Prop where
  shown : ∀ progress ∈ test.state.progress?, 0 ≤ progress ∧ test.Above progress
  coming : ∀ progress ∈ test.ticker.coming?, 0 ≤ progress ∧ progress ≤ test.limit

theorem limit_le_one (test : SpeedTest) : test.limit ≤ 1 := by
  have base := baseProgress_range test.measured
  have range := finalProgress_range test.measured test.startTime test.clock
  unfold limit
  split <;> linarith

theorem limit_nonneg (test : SpeedTest) : 0 ≤ test.limit := by
  have base := baseProgress_range test.measured
  have range := finalProgress_range test.measured test.startTime test.clock
  unfold limit
  split <;> linarith

section
variable {test : SpeedTest} {event : SpeedTestEvent}

theorem measuring_of_active (active : test.active = true) : test.main = .measuring :=
  (decide_eq_true_iff.mp active).1

theorem limit_mono (forward : test.Forward event) :
    test.limit ≤ (test.step event).limit := by
  cases event with
  | worker k result =>
    simp only [step]
    split <;> exact le_refl _
  | tick now =>
    simp only [step]
    split
    next lastBytes delaying active =>
      simp only [limit, measuring_of_active active]
      exact finalProgress_mono _ _ forward
    next => exact le_refl _
  | publish | tickerEnds =>
    simp only [step]
    split <;> exact le_refl _
  | timeUp =>
    simp only [step]
    split
    next active =>
      simp only [limit, measuring_of_active active]
      exact le_refl _
    next => exact le_refl _
  | average now =>
    simp only [step]
    split
    -- the average is taken: the progress of the direction is complete
    next stopping =>
      simp only [limit, stopping]
      exact (finalProgress_range ..).2
    next => exact le_refl _
  | throws =>
    simp only [step]
    split
    · exact limit_le_one test
    · exact le_refl _
  | join now =>
    simp only [step]
    split
    next childless =>
      split
      next mbps joining =>
        unfold joined
        split
        · exact limit_le_one test
        · split
          next download =>
            simp only [limit, joining, download, measureThroughput, finalProgress_start]
            -- half of the whole, where the upload begins
            norm_num [baseProgress, isDownload]
          next => exact limit_le_one test
      next => exact limit_le_one test
      next => exact le_refl _
      next => exact le_refl _
      next => exact le_refl _
    next => exact le_refl _
  | cancel => exact le_refl _
  | reset => exact le_refl _

/-- What a step shows was shown, was about to be, or is what has been reached, the ticker
having ended. -/
theorem step_shows {progress : ℚ} (shows : progress ∈ (test.step event).state.progress?) :
    progress ∈ test.state.progress? ∨ progress ∈ test.ticker.coming? ∨
      (progress = test.limit ∧ (test.step event).ticker.coming? = none) := by
  cases event with
  | worker k result | tick now | tickerEnds | timeUp | average now | throws =>
    simp only [step] at shows
    split at shows <;> exact .inl shows
  | publish =>
    simp only [step] at shows
    split at shows
    next publishing =>
      refine .inr (.inl ?_)
      rw [publishing]
      exact shows
    next => exact .inl shows
    next => exact .inl shows
  | join now =>
    simp only [step] at shows ⊢
    split at shows
    next childless =>
      rw [if_pos childless]
      split at shows
      next mbps joining =>
        unfold joined at shows ⊢
        split at shows
        · exact .inl shows
        next going =>
          rw [if_neg going]
          split at shows
          next download =>
            refine .inr (.inr ⟨?_, by rw [download]; rfl⟩)
            simp only [limit, joining, download]
            obtain rfl : 1 / 2 = progress := Option.some.inj shows
            norm_num [baseProgress, isDownload]
          next => cases shows
      next => exact .inl shows
      next => exact .inl shows
      next => exact .inl shows
      next => exact .inl shows
    next => exact .inl shows
  | cancel => exact .inl shows
  | reset => cases shows

theorem step_coming (forward : test.Forward event) {progress : ℚ}
    (coming : progress ∈ (test.step event).ticker.coming?) :
    progress ∈ test.ticker.coming? ∨ (test.limit ≤ progress ∧ progress = (test.step event).limit) := by
  have later := limit_mono forward
  cases event with
  | tick now =>
    simp only [step] at coming later ⊢
    split at coming
    next lastBytes delaying active =>
      rw [delaying, active] at later
      obtain rfl := Option.some.inj coming
      have reached : limit { test with
          ticker := .publishing test.totalBytes (.live (isDownload test.measured)
            (liveMbps (test.totalBytes - lastBytes))) (finalProgress test.measured test.startTime now)
          clock := now } = finalProgress test.measured test.startTime now := by
        simp only [limit, measuring_of_active active]
      exact .inr ⟨reached ▸ later, reached.symm⟩
    next => exact .inl coming
  | worker k result | timeUp | average now | throws =>
    simp only [step] at coming
    split at coming <;> exact .inl coming
  | publish =>
    simp only [step] at coming
    split at coming
    · cases coming
    · exact .inl coming
    · exact .inl coming
  | tickerEnds =>
    simp only [step] at coming
    split at coming
    · cases coming
    · exact .inl coming
  | join now =>
    simp only [step] at coming
    split at coming
    next childless =>
      split at coming
      next mbps joining =>
        unfold joined at coming
        split at coming
        · exact .inl coming
        · split at coming
          · cases coming
          · exact .inl coming
      all_goals exact .inl coming
    next => exact .inl coming
  | cancel | reset => exact .inl coming

theorem Above.step {low : ℚ} (above : test.Above low) (forward : test.Forward event) :
    (test.step event).Above low where
  shown := by
    intro progress shows
    rcases step_shows shows with before | coming | ⟨reached, -⟩
    · exact above.shown progress before
    · exact above.coming progress coming
    · exact reached ▸ above.reached
  coming := by
    intro progress coming
    rcases step_coming forward coming with before | ⟨beyond, -⟩
    · exact above.coming progress before
    · exact above.reached.trans beyond
  reached := above.reached.trans (limit_mono forward)

theorem Steady.step (steady : test.Steady) (forward : test.Forward event) : (test.step event).Steady := by
  have later := limit_mono forward
  constructor
  · intro progress shows
    -- only one value is shown at a time
    have once : ∀ other ∈ (test.step event).state.progress?, progress ≤ other := by
      intro other shows'
      exact le_of_eq (Option.some.inj (shows.symm.trans shows'))
    rcases step_shows shows with before | coming | ⟨reached, ended⟩
    · obtain ⟨nonneg, above⟩ := steady.shown progress before
      exact ⟨nonneg, above.step forward⟩
    · obtain ⟨nonneg, reached⟩ := steady.coming progress coming
      refine ⟨nonneg, once, fun other coming' => ?_, reached.trans later⟩
      rcases step_coming forward coming' with same | ⟨beyond, -⟩
      · exact le_of_eq (Option.some.inj (coming.symm.trans same))
      · exact reached.trans beyond
    · refine ⟨reached ▸ limit_nonneg test, once, fun other coming => ?_, reached ▸ later⟩
      rw [ended] at coming
      cases coming
  · intro progress coming
    rcases step_coming forward coming with before | ⟨beyond, reached⟩
    · obtain ⟨nonneg, bound⟩ := steady.coming progress before
      exact ⟨nonneg, bound.trans later⟩
    · exact ⟨(limit_nonneg test).trans beyond, le_of_eq reached⟩

end

theorem steady_start (now : Int) : (runSpeedTest now).Steady where
  shown := by
    intro progress shows
    obtain rfl : 0 = progress := Option.some.inj shows
    refine ⟨le_refl _, fun other shows' => ?_, fun other coming => (by cases coming), limit_nonneg _⟩
    exact le_of_eq (Option.some.inj shows')
  coming := by
    intro progress coming
    cases coming

/-! ### Results -/

structure Finished (test : SpeedTest) (result : SpeedTestResult) : Prop where
  main : test.main = .returned result
  childless : test.Childless
  state : test.state = .complete result ∨ test.state = .idle

theorem not_active_of_returned {test : SpeedTest} {result : SpeedTestResult}
    (main : test.main = .returned result) :
    test.active = false := by simp [active, main]

theorem Finished.step {test : SpeedTest} {result : SpeedTestResult} (finished : test.Finished result)
    (event : SpeedTestEvent) : (test.step event).Finished result := by
  obtain ⟨main, ⟨gone, ticker⟩, state⟩ := finished
  have still := not_active_of_returned main
  cases event with
  | worker k answer =>
    simp only [SpeedTest.step]
    split
    next worker found =>
      -- a worker that is gone makes no more calls
      obtain rfl := gone worker (List.mem_of_getElem? found)
      refine ⟨main, ⟨fun other member => ?_, ticker⟩, state⟩
      rcases List.mem_or_eq_of_mem_set member with before | rfl
      · exact gone other before
      · rfl
    next => exact ⟨main, ⟨gone, ticker⟩, state⟩
  | cancel => exact ⟨main, ⟨gone, ticker⟩, state⟩
  | reset => exact ⟨main, ⟨gone, ticker⟩, .inr rfl⟩
  | tick | publish | tickerEnds | timeUp | average | throws | join =>
    have same : ∀ {test : SpeedTest}, test.main = .returned result → test.Childless →
        (test.state = .complete result ∨ test.state = .idle) → test.Finished result := fun main childless state =>
      ⟨main, childless, state⟩
    simp only [SpeedTest.step, main, ticker, still, reduceCtorEq, false_and, Bool.false_eq_true, if_false,
      ite_self]
    exact same main ⟨gone, ticker⟩ state

theorem complete_finishes {test : SpeedTest} {event : SpeedTestEvent} {result : SpeedTestResult}
    (shows : (test.step event).state = .complete result) :
    test.state = .complete result ∨ (test.step event).Finished result := by
  cases event with
  | worker | tick | tickerEnds | timeUp | average | throws =>
    simp only [step] at shows
    split at shows <;> exact .inl shows
  | publish =>
    simp only [step] at shows
    split at shows
    · cases shows
    · exact .inl shows
    · exact .inl shows
  | join now =>
    simp only [step] at shows ⊢
    split at shows
    next childless =>
      rw [if_pos childless]
      split at shows
      next mbps joining =>
        unfold joined at shows ⊢
        split at shows
        · exact .inl shows
        next going =>
          rw [if_neg going]
          split at shows
          · cases shows
          next dl upload =>
            obtain rfl := SpeedTestState.complete.inj shows
            rw [upload]
            exact .inr ⟨rfl, childless, .inl rfl⟩
      all_goals exact .inl shows
    next => exact .inl shows
  | cancel => exact .inl shows
  | reset => cases shows

theorem error_stays {test : SpeedTest} {event : SpeedTestEvent} {message : String}
    (shows : (test.step event).state = .error message) : test.state = .error message := by
  cases event with
  | worker | tick | tickerEnds | timeUp | average | throws =>
    simp only [step] at shows
    split at shows <;> exact shows
  | publish =>
    simp only [step] at shows
    split at shows
    · cases shows
    · exact shows
    · exact shows
  | join now =>
    simp only [step] at shows
    split at shows
    · split at shows
      · unfold joined at shows
        split at shows
        · exact shows
        · split at shows <;> cases shows
      all_goals exact shows
    · exact shows
  | cancel => exact shows
  | reset => cases shows

structure Sound (test : SpeedTest) : Prop where
  steady : test.Steady
  complete : ∀ result, test.state = .complete result → test.Finished result
  noError : ∀ message, test.state ≠ .error message

theorem sound_start (now : Int) : (runSpeedTest now).Sound where
  steady := steady_start now
  complete := by
    rintro result ⟨⟩
  noError := by
    rintro message ⟨⟩

theorem Sound.step {test : SpeedTest} (sound : test.Sound) {event : SpeedTestEvent}
    (forward : test.Forward event) :
    (test.step event).Sound where
  steady := sound.steady.step forward
  complete := fun result shows =>
    (complete_finishes shows).elim (fun before => (sound.complete result before).step event) id
  noError := fun message shows => sound.noError message (error_stays shows)

/-- However the coroutines are interleaved, whatever the network does, and also if the
test is cancelled or reset meanwhile: the progress shown stays between 0 and 1 and
never goes back, no error is shown, and a result stays until it is reset. -/
theorem progress_never_goes_back (now : Int) (past more : List SpeedTestEvent)
    (forward : Admits step Forward (runSpeedTest now) (past ++ more)) :
    let before := past.foldl step (runSpeedTest now)
    let after := more.foldl step before
    (∀ low ∈ before.state.progress?, ∀ high ∈ after.state.progress?, 0 ≤ low ∧ low ≤ high ∧ high ≤ 1) ∧
      (∀ message, after.state ≠ .error message) ∧
      ∀ result, before.state = .complete result → after.state = .complete result ∨ after.state = .idle := by
  intro before after
  rw [admits_append] at forward
  have sound : before.Sound :=
    forward.1.invariant Sound (fun _ _ sound forward => sound.step forward) (sound_start now)
  have later : after.Sound := forward.2.invariant Sound (fun _ _ sound forward => sound.step forward) sound
  refine ⟨fun low shown high shown' => ?_, later.noError, fun result shown => ?_⟩
  · obtain ⟨nonneg, above⟩ := sound.steady.shown low shown
    have kept : after.Above low :=
      forward.2.invariant (Above · low) (fun _ _ above forward => above.step forward) above
    have top := (later.steady.shown high shown').2.reached
    exact ⟨nonneg, kept.shown high shown', top.trans after.limit_le_one⟩
  · have kept : after.Finished result :=
      run_invariant (Finished · result) (fun _ event finished => finished.step event) (sound.complete result shown)
        more
    exact kept.state

theorem progress_never_goes_back_sample :
    let quick (now : Int) : List SpeedTestEvent := [.tick now, .publish, .timeUp, .average now, .worker 0 .ended,
      .worker 1 .ended, .worker 2 .ended, .worker 3 .ended, .tickerEnds, .join now]
    let first := [.tick 1000000000, .publish].foldl step (runSpeedTest 0)
    let later := [.reset, .tick 4000000000, .publish].foldl step first
    let finished := (quick 8000000000 ++ quick 16000000000).foldl step (runSpeedTest 0)
    let cleared := [.tick 17000000000, .reset].foldl step finished
    (∀ low ∈ first.state.progress?, ∀ high ∈ later.state.progress?, 0 ≤ low ∧ low ≤ high ∧ high ≤ 1) ∧
      finished.state = .complete ⟨0, 0⟩ ∧
      ∀ result, finished.state = .complete result → cleared.state = .complete result ∨ cleared.state = .idle := by
  intro quick first later finished cleared
  have running := progress_never_goes_back 0 [.tick 1000000000, .publish] [.reset, .tick 4000000000, .publish]
    (by decide +kernel)
  have whole := progress_never_goes_back 0 (quick 8000000000 ++ quick 16000000000) [.tick 17000000000, .reset]
    (by decide +kernel)
  exact ⟨running.1, by decide +kernel, whole.2.2⟩

end SpeedTest

end ThrottleVpn.Speed
