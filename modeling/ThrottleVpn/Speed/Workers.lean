import ThrottleVpn.Speed.SpeedTestManager

/-! The workers of a speed test.

An upload announces its length beforehand and must then write just that. A worker that
was cancelled ends as soon as its connection lets it.
-/

set_option autoImplicit false

namespace ThrottleVpn.Speed

open Foundation SpeedTestManager

/-! ### Uploads -/

/-- A request keeps to its length, unless it is given up. -/
def Worker.Announced (active : Bool) : Worker → Prop
  | upload sent => sent ≤ chunkSize
  | writing sent => sent < chunkSize
  | acknowledging sent => sent = chunkSize ∨ active = false
  | looping | connecting | download | reading | gone => True

theorem Worker.chunk_fits {sent : Nat} (more : sent < chunkSize) :
    0 < chunk sent ∧ chunk sent ≤ bufferSize ∧ sent + chunk sent ≤ chunkSize := by
  unfold chunk bufferSize
  omega

theorem Worker.Announced.next {worker : Worker} {active : Bool} (announced : worker.Announced active)
    (isDownload : Bool) (result : NetResult) : (worker.next isDownload active result).1.Announced active := by
  cases worker with
  | looping => cases active <;> trivial
  | connecting =>
    cases result with
    | failed => trivial
    | moved | ended =>
      cases isDownload with
      | true => trivial
      | false => exact Nat.zero_le _
  | download => cases active <;> trivial
  | reading => cases result <;> trivial
  | upload sent =>
    have bound : sent ≤ chunkSize := announced
    simp only [Worker.next]
    split
    next more => exact more.2
    next full =>
      cases active with
      | false => exact .inr rfl
      | true =>
        rw [not_and] at full
        exact .inl (le_antisymm bound (not_lt.mp (full rfl)))
  | writing sent =>
    cases result with
    | failed => trivial
    | moved | ended => exact (chunk_fits announced).2.2
  | acknowledging | gone => trivial

theorem Worker.Announced.mono {worker : Worker} {before after : Bool} (announced : worker.Announced before)
    (fades : after = true → before = true) : worker.Announced after := by
  cases worker with
  | acknowledging sent =>
    refine announced.imp_right fun given => ?_
    cases after with
    | false => rfl
    | true => simp [fades rfl] at given
  | _ => exact announced

namespace SpeedTest

theorem step_workers (test : SpeedTest) (event : SpeedTestEvent) :
    ((test.step event).workers = test.workers ∧ ((test.step event).active = true → test.active = true) ∧
        ∀ k result, event = .worker k result → test.workers[k]? = none) ∨
      (∃ k worker result, event = .worker k result ∧ test.workers[k]? = some worker ∧
        (test.step event).workers = test.workers.set k
          (worker.next (isDownload test.measured) test.active result).1 ∧
        (test.step event).active = test.active) ∨
      ((∃ now, event = .join now) ∧ (test.step event).workers = List.replicate numThreads .looping) := by
  cases event with
  | worker k result =>
    cases found : test.workers[k]? with
    | some worker =>
      exact .inr (.inl ⟨k, worker, result, rfl, found, by simp [step, found], by simp [step, found, active]⟩)
    | none =>
      refine .inl ⟨by simp [step, found], by simp [step, found], ?_⟩
      rintro k' result' same
      obtain ⟨rfl, rfl⟩ := SpeedTestEvent.worker.inj same
      exact found
  | tick | publish | tickerEnds =>
    refine .inl ?_
    simp only [step]
    split <;> exact ⟨rfl, id, by simp⟩
  | timeUp | throws | average =>
    refine .inl ?_
    simp only [step]
    split
    · exact ⟨rfl, fun active => by simp [SpeedTest.active] at active, by simp⟩
    · exact ⟨rfl, id, by simp⟩
  | join now =>
    simp only [step]
    split
    · split
      · unfold joined
        split
        · exact .inl ⟨rfl, fun active => by simp [SpeedTest.active, catches] at active, by simp⟩
        · split
          · exact .inr (.inr ⟨⟨now, rfl⟩, rfl⟩)
          · exact .inl ⟨rfl, fun active => by simp [SpeedTest.active] at active, by simp⟩
      · exact .inl ⟨rfl, fun active => by simp [SpeedTest.active, catches] at active, by simp⟩
      all_goals exact .inl ⟨rfl, id, by simp⟩
    · exact .inl ⟨rfl, id, by simp⟩
  | cancel => exact .inl ⟨rfl, fun active => by simp [step, SpeedTest.active] at active, by simp⟩
  | reset => exact .inl ⟨rfl, id, by simp⟩

def Announced (test : SpeedTest) : Prop := ∀ worker ∈ test.workers, worker.Announced test.active

theorem Announced.step {test : SpeedTest} (announced : test.Announced) (event : SpeedTestEvent) :
    (test.step event).Announced := by
  unfold SpeedTest.Announced
  rcases test.step_workers event with ⟨same, fades, -⟩ | ⟨k, worker, result, -, found, moved, same⟩ | ⟨-, fresh⟩
  · rw [same]
    exact fun worker member => (announced worker member).mono fades
  · rw [moved, same]
    intro other member
    rcases List.mem_or_eq_of_mem_set member with before | rfl
    · exact announced other before
    · exact (announced worker (List.mem_of_getElem? found)).next _ result
  · rw [fresh]
    intro worker member
    rw [List.eq_of_mem_replicate member]
    trivial

/-- In every run of a test, an upload writes non-empty pieces that fit the buffer and
never more than it announced, and it waits for the answer only when it has written just
that, or after it was cancelled. -/
theorem uploads_as_announced (now : Int) (events : List SpeedTestEvent) :
    let test := events.foldl step (runSpeedTest now)
    ∀ worker ∈ test.workers, ∀ sent,
      (worker = .writing sent → 0 < Worker.chunk sent ∧ Worker.chunk sent ≤ bufferSize ∧
        sent + Worker.chunk sent ≤ chunkSize) ∧
      (worker = .acknowledging sent → sent = chunkSize ∨ test.active = false) := by
  intro test worker member sent
  have began : (runSpeedTest now).Announced := by
    intro worker member
    rw [List.eq_of_mem_replicate member]
    trivial
  have announced : worker.Announced test.active :=
    run_invariant Announced (fun _ event announced => announced.step event) began events worker member
  constructor
  · rintro rfl
    exact Worker.chunk_fits announced
  · rintro rfl
    exact announced

end SpeedTest

/-! ### The end of the workers -/

/-- How many more calls a cancelled worker makes at most. -/
def Worker.rank : Worker → Nat
  | gone => 0
  | looping => 1
  | download | acknowledging _ => 2
  | reading | upload _ => 3
  | connecting | writing _ => 4

theorem Worker.rank_le (worker : Worker) : worker.rank ≤ 4 := by cases worker <;> simp [rank]

theorem Worker.rank_next (worker : Worker) (isDownload : Bool) (result : NetResult) :
    (worker.next isDownload false result).1.rank ≤ worker.rank - 1 := by
  cases worker with
  | connecting => cases result <;> cases isDownload <;> simp [next, rank]
  | reading | writing => cases result <;> simp [next, rank]
  | looping | download | upload | acknowledging | gone => simp [next, rank]

def SpeedTestEvent.calls (k : Nat) : SpeedTestEvent → Bool
  | .worker called _ => called = k
  | _ => false

namespace SpeedTest

def rankAt (test : SpeedTest) (k : Nat) : Nat := test.workers[k]?.elim 0 Worker.rank

theorem step_inactive {test : SpeedTest} {event : SpeedTestEvent} (inactive : test.active = false)
    (joinless : ∀ now, event ≠ .join now) : (test.step event).active = false ∧
      (test.step event).workers.length = test.workers.length ∧
      ∀ k, (test.step event).rankAt k ≤ test.rankAt k - (if event.calls k then 1 else 0) := by
  rcases test.step_workers event with
    ⟨same, fades, absent⟩ | ⟨k, worker, result, rfl, found, moved, same⟩ | ⟨⟨now, rfl⟩, -⟩
  · refine ⟨?_, by rw [same], fun k => ?_⟩
    -- nothing but a join makes the children active again
    · cases active : (test.step event).active with
      | false => rfl
      | true => exact absurd (fades active) (by simp [inactive])
    · unfold rankAt
      rw [same]
      cases event with
      | worker called result =>
        by_cases here : called = k
        · subst here
          simp [absent called result rfl]
        · simp [SpeedTestEvent.calls, here]
      | tick | publish | tickerEnds | timeUp | average | throws | join | cancel | reset =>
        simp [SpeedTestEvent.calls]
  · refine ⟨same.trans inactive, by rw [moved, List.length_set], fun other => ?_⟩
    unfold rankAt
    rw [moved]
    by_cases here : k = other
    · subst here
      rw [List.getElem?_set_self (List.getElem?_eq_some_iff.mp found).1, found, inactive]
      simp only [Option.elim, SpeedTestEvent.calls, decide_true, if_true]
      exact worker.rank_next _ result
    · rw [List.getElem?_set_ne here]
      simp [SpeedTestEvent.calls, here]
  · exact absurd rfl (joinless now)

theorem run_inactive {test : SpeedTest} {events : List SpeedTestEvent} (inactive : test.active = false)
    (joinless : ∀ event ∈ events, ∀ now, event ≠ .join now) :
    (events.foldl step test).active = false ∧ (events.foldl step test).workers.length = test.workers.length ∧
      ∀ k, (events.foldl step test).rankAt k ≤ test.rankAt k - events.countP (·.calls k) := by
  induction events generalizing test with
  | nil => exact ⟨inactive, rfl, fun k => Nat.le_refl _⟩
  | cons event rest ih =>
    rw [List.forall_mem_cons] at joinless
    obtain ⟨still, size, here⟩ := step_inactive inactive joinless.1
    obtain ⟨final, size', later⟩ := ih still joinless.2
    refine ⟨final, size'.trans size, fun k => ?_⟩
    have first := here k
    have second := later k
    rw [List.countP_cons, List.foldl_cons]
    omega

end SpeedTest

def Ticker.rank : Ticker → Nat
  | gone => 0
  | delaying _ => 1
  | publishing _ _ _ => 2

theorem Ticker.rank_eq_zero {ticker : Ticker} (ended : ticker.rank = 0) : ticker = .gone := by
  cases ticker with
  | gone => rfl
  | delaying | publishing => cases ended

namespace SpeedTest

theorem step_ticker {test : SpeedTest} {event : SpeedTestEvent} (inactive : test.active = false)
    (joinless : ∀ now, event ≠ .join now) :
    (test.step event).ticker.rank ≤ test.ticker.rank ∧
      (event = .publish → (test.step event).ticker.rank ≤ 1) ∧
      (event = .tickerEnds → test.ticker.rank ≤ 1 → (test.step event).ticker.rank = 0) := by
  cases event with
  | worker k result =>
    simp only [step]
    split <;> simp
  | tick now => cases ticker : test.ticker <;> simp [step, inactive, ticker]
  | publish => cases ticker : test.ticker <;> simp [step, ticker, Ticker.rank]
  | tickerEnds => cases ticker : test.ticker <;> simp [step, inactive, ticker, Ticker.rank]
  | timeUp | throws | average =>
    simp only [step]
    split <;> simp
  | join now => exact absurd rfl (joinless now)
  | cancel | reset => simp [step]

section
variable {test : SpeedTest} {events : List SpeedTestEvent}

theorem gone_stays (inactive : test.active = false) (joinless : ∀ event ∈ events, ∀ now, event ≠ .join now)
    (ended : test.ticker.rank = 0) : (events.foldl step test).ticker.rank = 0 := by
  induction events generalizing test with
  | nil => exact ended
  | cons event rest ih =>
    rw [List.forall_mem_cons] at joinless
    have less := (step_ticker inactive joinless.1).1
    exact ih (step_inactive inactive joinless.1).1 joinless.2 (by omega)

theorem delaying_ends (inactive : test.active = false) (joinless : ∀ event ∈ events, ∀ now, event ≠ .join now)
    (delaying : test.ticker.rank ≤ 1) (turn : .tickerEnds ∈ events) :
    (events.foldl step test).ticker.rank = 0 := by
  induction events generalizing test with
  | nil => cases turn
  | cons event rest ih =>
    rw [List.forall_mem_cons] at joinless
    obtain ⟨less, -, ends⟩ := step_ticker inactive joinless.1
    have still := (step_inactive inactive joinless.1).1
    rw [List.foldl_cons]
    rcases List.mem_cons.mp turn with here | later
    · exact gone_stays still joinless.2 (ends here.symm delaying)
    · exact ih still joinless.2 (less.trans delaying) later

theorem publishing_ends (inactive : test.active = false) (joinless : ∀ event ∈ events, ∀ now, event ≠ .join now)
    (turns : [.publish, .tickerEnds].Sublist events) : (events.foldl step test).ticker.rank = 0 := by
  induction events generalizing test with
  | nil => cases turns
  | cons event rest ih =>
    rw [List.forall_mem_cons] at joinless
    have still := (step_inactive inactive joinless.1).1
    cases turns with
    -- the first of the two turns is still to come
    | cons _ later => exact ih still joinless.2 later
    | cons_cons _ later =>
      have shown := (step_ticker inactive joinless.1).2.1 rfl
      rw [List.foldl_cons]
      exact delaying_ends still joinless.2 shown (List.singleton_sublist.mp later)

/-- Once the time is up or the test is cancelled, it comes to its end as long as each
blocking call returns: whatever the network answers, the children have ended when four
more calls of each worker returned and the ticker took its last turns. -/
theorem cancelled_children_end (test : SpeedTest) (events : List SpeedTestEvent) (inactive : test.active = false)
    (joinless : ∀ event ∈ events, ∀ now, event ≠ .join now)
    (calls : ∀ k < test.workers.length, 4 ≤ events.countP (·.calls k))
    (turns : [.publish, .tickerEnds].Sublist events) : (events.foldl step test).Childless := by
  obtain ⟨-, size, closer⟩ := run_inactive inactive joinless
  refine ⟨fun worker member => ?_, Ticker.rank_eq_zero (publishing_ends inactive joinless turns)⟩
  obtain ⟨k, there⟩ := List.mem_iff_getElem?.mp member
  have inside : k < test.workers.length := size ▸ (List.getElem?_eq_some_iff.mp there).1
  -- no worker is more than four calls from its end
  have made := calls k inside
  have least : test.rankAt k ≤ 4 := by
    unfold rankAt
    rw [List.getElem?_eq_getElem inside]
    exact Worker.rank_le _
  have left : worker.rank ≤ test.rankAt k - events.countP (·.calls k) := by
    have bound := closer k
    unfold rankAt at bound
    rwa [there] at bound
  cases worker with
  | gone => rfl
  | looping | connecting | download | reading | upload | writing | acknowledging =>
    simp only [Worker.rank] at left
    omega

theorem cancelled_children_end_sample :
    let before : List SpeedTestEvent :=
      [.worker 0 .ended, .worker 0 .ended, .worker 0 .ended, .tick 7900000000, .timeUp]
    let calls := (List.range 4).flatMap fun k => List.replicate 4 (SpeedTestEvent.worker k (.moved 1000))
    let turns : List SpeedTestEvent := [.publish, .tickerEnds]
    ((calls ++ turns).foldl step (before.foldl step (runSpeedTest 0))).Childless :=
  cancelled_children_end _ _ (by decide +kernel) (by rintro event member now rfl; simp at member)
    (by decide +kernel) (List.sublist_append_right _ _)

end

end SpeedTest

end ThrottleVpn.Speed
