import ThrottleVpn.Foundation.Sections
import ThrottleVpn.Service.Steps

/-! The caps shown are the caps enforced.

A new engine starts with rates of its own, and the published caps stay what they were
until the saved ones are applied. While `doStop`, `updateCaps` and coroutines past
`Builder.establish` do not overlap, and no coroutine leaves published caps standing that
its new engine does not have, a connected service at rest enforces what it shows. A
coroutine whose `Builder.establish` is refused may come at any time.
-/

set_option autoImplicit false

namespace ThrottleVpn.Service

open Foundation Function

/-- A limiter with this rate enforces this cap. -/
def Serves (mbps : ℚ) (rate : Int) : Prop := 0 < mbps → rate = ⌊mbps * 125000⌋

instance (mbps : ℚ) (rate : Int) : Decidable (Serves mbps rate) := inferInstanceAs (Decidable (_ → _))

theorem serves_bytesPerSecond {mbps : ℚ} (fits : mbps * 125000 < 2 ^ 63) : Serves mbps (bytesPerSecond mbps) :=
  fun positive => bytesPerSecond_eq positive fits

def Enforced (m : Memory) : Prop := Serves m.dlCap m.native.dlRate ∧ Serves m.ulCap m.native.ulRate

instance (m : Memory) : Decidable (Enforced m) := inferInstanceAs (Decidable (_ ∧ _))

/-! ### The section -/

/-- What a limiter's rate is known to be: that of a new engine, that of a cap which is
being applied, or that of the published cap. -/
inductive Target where
  | any
  | initial
  | cap (mbps : ℚ)
  | published
  deriving DecidableEq

def Target.Meets (shown : ℚ) (rate : Int) : Target → Prop
  | any => True
  | initial => rate = 1000000000
  | cap mbps => Serves mbps rate
  | published => Serves shown rate

/-- Where a task stands: in a coroutine with a TUN but no shaper, with the service offline, or
with rates known for download and upload. What is held firmly does not depend on the status. -/
inductive CapsPhase where
  | out
  | launched
  | offline
  | held (firm : Bool) (dl ul : Target)
  | bad
  deriving DecidableEq

namespace CapsPhase

def pre : Stmt → CapsPhase → CapsPhase
  | .begin, .out | .buildVpnFd, .launched => .out
  | .newShaper, .held true .any .any => .launched
  | .startEngine, .held true .initial .initial => .held true .any .any
  | .memset, .held true .any .any | .initLocks, .held true .initial .initial => .held true .any .any
  | .cacheRefs, .held true dl ul | .createEpoll, .held true dl ul | .watchTun, .held true dl ul
  | .createThread, .held true dl ul | .registerNetCb, .held true dl ul => .held true dl ul
  | .applySavedCaps, .held true .published .published => .held true .initial .initial
  | .updateShaperCaps dl ul, .held firm (.cap mbpsDl) (.cap mbpsUl) =>
    if mbpsDl = dl ∧ mbpsUl = ul then if firm then .held true .any .any else .out else .bad
  | .setDlRate mbps, .held firm (.cap dl) ul => if dl = mbps then .held firm .any ul else .bad
  | .setUlRate mbps, .held firm dl (.cap ul) => if ul = mbps then .held firm dl .any else .bad
  | .setDlCap mbps, .held firm .published ul => .held firm (.cap mbps) ul
  | .setUlCap mbps, .held firm dl .published => .held firm dl (.cap mbps)
  | .setUlCap mbps, .out => .held false .published (.cap mbps)
  | .launchCollector, .out | .setStatus .connected, .out => .held true .published .published
  | .setStatus .connected, .held true .initial .initial => .held true .initial .initial
  | .setStatus .error, .out => .launched
  | .setStatus .disconnected, .offline | .setStatus .connecting, .out | .setStatus .reconnecting, .out
  | .returnIfConnected, .out | .returnUnless _, .out => .out
  | .clearShaper, .held false _ _ | .clearShaper, .offline | .setDlCap _, .offline | .setUlCap _, .offline
  | .clearInstance, .out => .offline
  | .begin, _ | .buildVpnFd, _ | .newShaper, _ | .startEngine, _ | .memset, _ | .initLocks, _ | .cacheRefs, _
  | .createEpoll, _ | .watchTun, _ | .createThread, _ | .registerNetCb, _ | .applySavedCaps, _
  | .updateShaperCaps _ _, _ | .setDlRate _, _ | .setUlRate _, _ | .setDlCap _, _ | .setUlCap _, _
  | .launchCollector, _ | .setStatus _, _ | .returnIfConnected, _ | .returnUnless _, _ | .clearShaper, _
  | .clearInstance, _ => .bad
  | _, phase => phase

end CapsPhase

def capsOutline : Outline Stmt CapsPhase := ⟨.out, CapsPhase.pre⟩

@[simp] theorem capsOutline_out : capsOutline.out = .out := rfl

@[simp] theorem capsOutline_pre (stmt : Stmt) (phase : CapsPhase) :
    capsOutline.pre stmt phase = CapsPhase.pre stmt phase := rfl

def Ready (o : Nat) (m : Memory) : Prop := m.current = some o ∧ m.shaper o ≠ none

def CapsPhase.Holds : CapsPhase → Site → Memory → Prop
  | .out, _, m => m.status = .connected → (∃ o, Ready o m) ∧ Enforced m
  | .launched, site, m => m.current = some site.service
  | .offline, _, m => m.status ≠ .connected
  | .held firm dl ul, site, m => (firm = false → m.status = .connected) →
    Ready site.service m ∧ dl.Meets m.dlCap m.native.dlRate ∧ ul.Meets m.ulCap m.native.ulRate
  | .bad, _, _ => False

theorem caps_outside_launched : ¬capsOutline.Inside startBody ∧ ¬capsOutline.Inside reconnectBody ∧
    ¬capsOutline.Inside collectStats := by decide

/-! ### Statements that leave the caps alone -/

structure SameCaps (m after : Memory) : Prop where
  status : after.status = m.status
  current : after.current = m.current
  shaper : after.shaper = m.shaper
  dlCap : after.dlCap = m.dlCap
  ulCap : after.ulCap = m.ulCap
  dlRate : after.native.dlRate = m.native.dlRate
  ulRate : after.native.ulRate = m.native.ulRate

theorem SameCaps.holds {m after : Memory} (same : SameCaps m after) {phase : CapsPhase} {site : Site}
    (holds : phase.Holds site m) : phase.Holds site after := by
  obtain ⟨status, current, shaper, dlCap, ulCap, dlRate, ulRate⟩ := same
  cases phase
  case bad => exact holds
  all_goals simpa only [CapsPhase.Holds, Ready, Enforced, status, current, shaper, dlCap, ulCap, dlRate,
    ulRate] using holds

def Stmt.establishes : Stmt → Bool
  | .buildVpnFd | .newShaper | .startEngine | .memset | .initLocks | .cacheRefs | .createEpoll | .watchTun
  | .createThread | .registerNetCb => true
  | _ => false

def Stmt.applies : Stmt → Bool
  | .applySavedCaps | .updateShaperCaps _ _ | .setDlRate _ | .setUlRate _ | .setDlCap _ | .setUlCap _ => true
  | _ => false

def Stmt.switches : Stmt → Bool
  | .begin | .launchCollector | .setStatus _ | .returnIfConnected | .returnUnless _ | .clearShaper
  | .clearInstance => true
  | _ => false

theorem exec_beside {stmt : Stmt} (establishes : stmt.establishes = false) (applies : stmt.applies = false)
    (switches : stmt.switches = false) (o : Nat) (answer : Answer) (m : Memory) (rest handler : List Stmt) :
    (stmt.exec o answer m).Leads m rest handler fun after code new =>
      SameCaps m after ∧ (∀ launched ∈ new, ¬capsOutline.Inside launched.code) ∧
        capsOutline.phase code = capsOutline.phase (stmt :: rest) := by
  have outside := caps_outside_launched
  cases stmt <;> simp only [Stmt.establishes, reduceCtorEq] at establishes <;>
    simp only [Stmt.applies, reduceCtorEq] at applies <;> simp only [Stmt.switches, reduceCtorEq] at switches <;>
    simp only [Stmt.exec] <;> (repeat' split) <;> simp only [Outcome.Leads]
  all_goals refine ⟨⟨rfl, rfl, rfl, rfl, rfl, rfl, rfl⟩, by simp [outside], ?_⟩
  all_goals rfl

/-! ### Statements of the section -/

def Stmt.raises : Stmt → Bool
  | .buildVpnFd | .newShaper | .startEngine | .cacheRefs | .createEpoll | .watchTun | .createThread
  | .registerNetCb | .applySavedCaps => true
  | _ => false

def Stmt.mbps : Stmt → Option ℚ
  | .setDlRate mbps | .setUlRate mbps => some mbps
  | _ => none

/-- A cap fits in a `Long` as a rate, and saved caps that are not both positive leave no
published cap standing that a new engine does not enforce. -/
def Applicable (m : Memory) (o : Nat) (answer : Answer) (stmt : Stmt) : Prop :=
  (∀ mbps ∈ stmt.mbps, mbps * 125000 < 2 ^ 63) ∧
    (stmt = .applySavedCaps → m.cancelled o = false → ∀ saved ∈ answer.saved,
      0 < (App.savedCaps saved).1 ∧ 0 < (App.savedCaps saved).2 ∨
        Serves m.dlCap 1000000000 ∧ Serves m.ulCap 1000000000)

instance (m : Memory) (o : Nat) (answer : Answer) (stmt : Stmt) : Decidable (Applicable m o answer stmt) :=
  inferInstanceAs (Decidable ((∀ mbps ∈ stmt.mbps, _) ∧ (_ → _ → ∀ saved ∈ answer.saved, _ ∨ _)))

theorem caps_turn {site : Site} {after : Memory} {code : List Stmt} {q : CapsPhase}
    (phase : capsOutline.phase code = q) (holds : q.Holds site after) :
    capsOutline.Turn CapsPhase.Holds site after code [] :=
  ⟨by simp, phase ▸ holds⟩

section
variable {stmt : Stmt} {site : Site} {m : Memory} {rest handler : List Stmt} {answer : Answer}

theorem exec_establishes (establishes : stmt.establishes = true)
    (recovered : stmt.raises = true → capsOutline.phase handler = .launched)
    (attended : capsOutline.phase (stmt :: rest) = .out → m.current = some site.service)
    (holds : (capsOutline.phase (stmt :: rest)).Holds site m) :
    (stmt.exec site.service answer m).Leads m rest handler (capsOutline.Turn CapsPhase.Holds site) := by
  rw [Outline.phase_cons, capsOutline_pre] at holds attended
  generalize phase : capsOutline.phase rest = next at holds attended
  cases stmt <;> simp only [Stmt.establishes, reduceCtorEq] at establishes <;>
    rcases next with _ | _ | _ | ⟨firm, dl, ul⟩ | _ <;> first | exact False.elim holds | skip
  case buildVpnFd.launched =>
    rw [Stmt.exec]
    split
    · exact caps_turn (q := .launched) (by simp [phase]) (attended rfl)
    · exact caps_turn (q := .launched) (recovered rfl) (attended rfl)
  -- from here on the instance has a shaper
  case newShaper.held =>
    cases firm <;> cases dl <;> cases ul <;> first | exact False.elim holds | skip
    rw [Stmt.exec]
    split
    · exact caps_turn (q := .held true .any .any) (by simp [phase])
        fun _ => ⟨⟨holds, by simp⟩, trivial, trivial⟩
    · exact caps_turn (q := .launched) (recovered rfl) holds
  case startEngine.held =>
    cases firm <;> cases dl <;> cases ul <;> first | exact False.elim holds | skip
    have current := (holds fun same => by cases same).1.1
    rw [Stmt.exec]
    split
    · split
      · exact caps_turn (q := .held true .any .any) (by simp [phase, engineStart, CapsPhase.pre]) holds
      · exact caps_turn (q := .launched) (recovered rfl) current
    · exact caps_turn (q := .launched) (recovered rfl) current
  -- memset clears the rates, and initLocks sets those of a new engine
  case memset.held =>
    cases firm <;> cases dl <;> cases ul <;> first | exact False.elim holds | skip
    exact caps_turn (q := .held true .any .any) (by simp [phase]) holds
  case initLocks.held =>
    cases firm <;> cases dl <;> cases ul <;> first | exact False.elim holds | skip
    exact caps_turn (q := .held true .initial .initial) (by simp [phase])
      fun firmly => ⟨(holds firmly).1, rfl, rfl⟩
  case cacheRefs.held | createEpoll.held | watchTun.held | createThread.held =>
    cases firm <;> first | exact False.elim holds | skip
    rw [Stmt.exec]
    split
    · exact caps_turn (q := .held true dl ul) (by simp [phase]) holds
    · exact caps_turn (q := .launched) (recovered rfl) (holds fun same => by cases same).1.1
  case registerNetCb.held =>
    cases firm <;> first | exact False.elim holds | skip
    rw [Stmt.exec]
    split
    · split
      · exact caps_turn (q := .held true dl ul) (by simp [phase]) holds
      · exact caps_turn (q := .launched) (recovered rfl) (holds fun same => by cases same).1.1
    · exact caps_turn (q := .launched) (recovered rfl) (holds fun same => by cases same).1.1

theorem exec_applies (applies : stmt.applies = true)
    (recovered : stmt.raises = true → capsOutline.phase handler = .launched)
    (attended : capsOutline.phase (stmt :: rest) = .out → m.current = some site.service)
    (applicable : Applicable m site.service answer stmt)
    (holds : (capsOutline.phase (stmt :: rest)).Holds site m) :
    (stmt.exec site.service answer m).Leads m rest handler (capsOutline.Turn CapsPhase.Holds site) := by
  rw [Outline.phase_cons, capsOutline_pre] at holds attended
  generalize phase : capsOutline.phase rest = next at holds attended
  cases stmt <;> simp only [Stmt.applies, reduceCtorEq] at applies <;>
    rcases next with _ | _ | _ | ⟨firm, dl, ul⟩ | _ <;> first | exact False.elim holds | skip
  case applySavedCaps.held =>
    cases firm <;> cases dl <;> cases ul <;> first | exact False.elim holds | skip
    obtain ⟨ready, dlRate, ulRate⟩ := holds fun same => by cases same
    rw [Stmt.exec]
    split
    next saved alive found =>
      by_cases positive : 0 < (App.savedCaps saved).1 ∧ 0 < (App.savedCaps saved).2
      · simp only [if_pos positive]
        exact caps_turn (q := .held true .any .any) (by simp [phase, updateCaps, CapsPhase.pre])
          fun _ => ⟨ready, trivial, trivial⟩
      · -- the rates stay those of the new engine
        have served := (applicable.2 rfl alive saved found).resolve_left positive
        simp only [if_neg positive]
        refine caps_turn (q := .held true .published .published) (by simp [phase]) fun _ => ⟨ready, ?_, ?_⟩
        · exact (show m.native.dlRate = 1000000000 from dlRate) ▸ served.1
        · exact (show m.native.ulRate = 1000000000 from ulRate) ▸ served.2
    next => exact caps_turn (q := .launched) (recovered rfl) ready.1
  case updateShaperCaps.held mbpsDl mbpsUl =>
    cases dl <;> cases ul <;> first | exact False.elim holds | skip
    case cap.cap dl ul =>
    simp only [CapsPhase.pre] at holds attended
    split at holds
    next same =>
      obtain ⟨rfl, rfl⟩ := same
      have ready : (firm = false → m.status = .connected) → Ready site.service m := by
        intro firmly
        cases firm
        case true => exact (holds firmly).1
        case false =>
          obtain ⟨⟨o, live, there⟩, -⟩ := holds (firmly rfl)
          have current := attended (by simp)
          exact ⟨current, Option.some.inj (current.symm.trans live) ▸ there⟩
      rw [Stmt.exec]
      split
      · exact caps_turn (q := .held firm .any .any) (by simp [phase, CapsPhase.pre])
          fun firmly => ⟨ready firmly, trivial, trivial⟩
      next unset =>
        -- without a shaper the service is not connected
        exact caps_turn (q := .held firm (.cap dl) (.cap ul)) (by simp [phase])
          fun firmly => absurd unset (ready firmly).2
    next => exact holds.elim
  case setDlRate.held mbps =>
    cases dl <;> first | exact False.elim holds | skip
    case cap dl =>
    simp only [CapsPhase.pre] at holds
    split at holds
    next same =>
      subst same
      exact caps_turn (q := .held firm (.cap dl) ul) (by simp [phase])
        fun firmly => ⟨(holds firmly).1, serves_bytesPerSecond (applicable.1 dl rfl), (holds firmly).2.2⟩
    next => exact holds.elim
  case setUlRate.held mbps =>
    cases ul <;> first | exact False.elim holds | skip
    case cap ul =>
    simp only [CapsPhase.pre] at holds
    split at holds
    next same =>
      subst same
      exact caps_turn (q := .held firm dl (.cap ul)) (by simp [phase])
        fun firmly => ⟨(holds firmly).1, (holds firmly).2.1, serves_bytesPerSecond (applicable.1 ul rfl)⟩
    next => exact holds.elim
  case setDlCap.offline | setUlCap.offline => exact caps_turn (q := .offline) (by simp [phase]) holds
  case setDlCap.held =>
    cases dl <;> first | exact False.elim holds | skip
    exact caps_turn (q := .held firm .published ul) (by simp [phase]) holds
  case setUlCap.held =>
    cases ul <;> first | exact False.elim holds | skip
    exact caps_turn (q := .held firm dl .published) (by simp [phase]) holds
  -- the end of `updateCaps`, and of `doStop`
  case setUlCap.out =>
    refine caps_turn (q := .out) (by simp [phase]) fun connected => ?_
    obtain ⟨ready, enforced⟩ := holds fun _ => connected
    exact ⟨⟨_, ready⟩, enforced⟩

theorem exec_switches (switches : stmt.switches = true)
    (holds : (capsOutline.phase (stmt :: rest)).Holds site m) :
    (stmt.exec site.service answer m).Leads m rest handler (capsOutline.Turn CapsPhase.Holds site) := by
  rw [Outline.phase_cons, capsOutline_pre] at holds
  generalize phase : capsOutline.phase rest = next at holds
  cases stmt <;> simp only [Stmt.switches, reduceCtorEq] at switches <;>
    rcases next with _ | _ | _ | ⟨firm, dl, ul⟩ | _ <;> first | exact False.elim holds | skip
  case begin.out =>
    rw [Stmt.exec]
    split
    · exact caps_turn (q := .out) rfl holds
    · exact caps_turn (q := .out) (by simp [phase]) holds
  case returnIfConnected.out =>
    rw [Stmt.exec]
    split
    · exact caps_turn (q := .out) rfl holds
    · exact caps_turn (q := .out) (by simp [phase]) holds
  case returnUnless.out =>
    rw [Stmt.exec]
    split
    · exact caps_turn (q := .out) (by simp [phase]) holds
    · exact caps_turn (q := .out) rfl holds
  case setStatus.out status =>
    cases status
    case disconnected => exact holds.elim
    case connecting | reconnecting => exact caps_turn (q := .out) (by simp [phase]) fun same => by cases same
    -- the end of a coroutine that failed
    case error => exact caps_turn (q := .out) (by simp [phase]) fun same => by cases same
    case connected =>
      obtain ⟨ready, enforced⟩ := holds fun same => by cases same
      exact caps_turn (q := .out) (by simp [phase]) fun _ => ⟨⟨_, ready⟩, enforced⟩
  case setStatus.offline status =>
    cases status <;> first | exact holds.elim | skip
    case disconnected => exact caps_turn (q := .offline) (by simp [phase]) (by simp [CapsPhase.Holds])
  case setStatus.held status =>
    cases status <;> first | exact False.elim holds | skip
    cases firm <;> cases dl <;> cases ul <;> first | exact False.elim holds | skip
    case connected.true.initial.initial =>
      exact caps_turn (q := .held true .initial .initial) (by simp [phase]) fun _ => holds fun same => by cases same
  case setStatus.launched status => cases status <;> exact holds.elim
  case setStatus.bad status => cases status <;> exact holds.elim
  case clearInstance.out =>
    exact caps_turn (q := .out) (by simp [phase]) fun connected => absurd connected holds
  case clearShaper.offline => exact caps_turn (q := .offline) (by simp [phase]) holds
  case clearShaper.held =>
    cases firm
    case true => exact holds.elim
    case false =>
      have never : m.status ≠ .connected := holds
      exact caps_turn (q := .held false dl ul) (by simp [phase]) fun connected => (never (connected rfl)).elim
  case launchCollector.out =>
    obtain ⟨ready, enforced⟩ := holds fun same => by cases same
    exact ⟨by simp [caps_outside_launched], by rw [phase]; exact fun _ => ⟨⟨_, ready⟩, enforced⟩⟩

/-- Every statement does its part in the section. -/
theorem exec_caps (recovers : stmt.raises = true → handler = onFailure)
    (attended : capsOutline.phase (stmt :: rest) = .out → m.current = some site.service)
    (applicable : Applicable m site.service answer stmt)
    (holds : (capsOutline.phase (stmt :: rest)).Holds site m) :
    (stmt.exec site.service answer m).Leads m rest handler (capsOutline.Turn CapsPhase.Holds site) := by
  have recovered : stmt.raises = true → capsOutline.phase handler = .launched := by
    intro raises
    rw [recovers raises]
    rfl
  cases establishes : stmt.establishes with
  | true => exact exec_establishes establishes recovered attended holds
  | false =>
    cases applies : stmt.applies with
    | true => exact exec_applies applies recovered attended applicable holds
    | false =>
      cases switches : stmt.switches with
      | true => exact exec_switches switches holds
      | false =>
        apply (exec_beside establishes applies switches site.service answer m rest handler).mono
        rintro after code new ⟨same, launched, phase⟩
        exact ⟨launched, phase.symm ▸ same.holds holds⟩

theorem CapsPhase.Holds.leave {phase : CapsPhase} (holds : phase.Holds site m) {status : VpnStatus}
    (other : status ≠ .connected) : phase.Holds site { m with status := status } := by
  cases phase with
  | out => exact fun same => absurd same other
  | launched => exact holds
  | offline => exact other
  | held firm dl ul =>
    cases firm with
    | true => exact fun _ => holds fun same => by cases same
    | false => exact fun connected => absurd (connected rfl) other
  | bad => exact holds

theorem exec_outside (outside : capsOutline.phase (stmt :: rest) = .out) (later : capsOutline.phase rest = .out) :
    (stmt.exec site.service answer m).Leads m rest handler (capsOutline.Passes CapsPhase.Holds m) := by
  have inert : ∀ {code : List Stmt}, capsOutline.phase code = .out →
      capsOutline.Passes CapsPhase.Holds m m code ([] : List (Task Site Stmt)) :=
    fun same => ⟨by simp, not_not.mpr same, fun _ _ => id⟩
  rw [Outline.phase_cons, capsOutline_pre, later] at outside
  cases establishes : stmt.establishes with
  | true => cases stmt <;> first | exact absurd establishes Bool.false_ne_true | cases outside
  | false =>
    cases applies : stmt.applies with
    | true => cases stmt <;> first | exact absurd applies Bool.false_ne_true | cases outside
    | false =>
      cases switches : stmt.switches with
      | true =>
        cases stmt <;> first | exact absurd switches Bool.false_ne_true | skip
        case begin => rw [Stmt.exec]; split <;> first | exact inert rfl | exact inert later
        case returnIfConnected => rw [Stmt.exec]; split <;> first | exact inert rfl | exact inert later
        case returnUnless => rw [Stmt.exec]; split <;> first | exact inert rfl | exact inert later
        case setStatus status =>
          cases status <;> first | cases outside; done | skip
          all_goals exact ⟨by simp, not_not.mpr later, fun _ _ holds => holds.leave (by decide)⟩
        all_goals cases outside
      | false =>
        apply (exec_beside establishes applies switches site.service answer m rest handler).mono
        rintro after code new ⟨same, launched, phase⟩
        rw [Outline.phase_cons, capsOutline_pre, later, outside] at phase
        exact ⟨launched, not_not.mpr phase, fun _ _ => same.holds⟩

end

/-! ### Runs -/

def Caught (s : State) : Prop :=
  ∀ task ∈ s.tasks, task.handler = onFailure ∨ ∀ stmt ∈ task.code, stmt.raises = false

theorem exec_caught (stmt : Stmt) (o : Nat) (answer : Answer) (m : Memory) (rest handler : List Stmt) :
    (stmt.exec o answer m).Leads m rest handler fun _ code new =>
      (stmt.raises = false → ∀ other ∈ code, other ∈ rest ∨ other.raises = false) ∧
        ∀ task ∈ new, task.handler = onFailure ∨ ∀ stmt ∈ task.code, stmt.raises = false := by
  cases stmt <;> simp only [Stmt.exec] <;> (repeat' split) <;> simp only [Outcome.Leads]
  all_goals first
    | trivial
    | refine ⟨?_, by simp [collectStats, Stmt.raises]⟩
  all_goals simp +contextual [Stmt.raises, engineStop, or_imp]

theorem Caught.run {s : State} (caught : Caught s) (k : Nat) (answer : Answer) :
    Caught (System.run State.exec answer k s) := by
  apply System.run_of_leads caught
  intro task stmt rest here next
  apply (exec_caught stmt task.site.service answer s.memory rest task.handler).mono
  rintro after code new ⟨calm, launched⟩ other among
  rcases System.mem_replace among with rfl | among | among
  · refine (caught task here.mem).imp_right fun before => ?_
    rw [next, List.forall_mem_cons] at before
    exact fun stmt within => (calm before.1 stmt within).elim (before.2 stmt) id
  · exact caught other among
  · exact launched other among

theorem Caught.call {s : State} (caught : Caught s) (thread : Thread) (o : Nat) {code : List Stmt}
    (calm : ∀ stmt ∈ code, stmt.raises = false) : Caught (s.call thread o code) := by
  intro task among
  rcases System.mem_spawn among with among | rfl
  · exact caught task among
  · exact .inr calm

theorem Caught.create {s : State} (caught : Caught s) : Caught s.create := by
  unfold State.create
  split <;> exact caught

theorem Caught.step {s : State} (caught : Caught s) (event : Event) : Caught (s.step event) := by
  apply State.step_of caught caught.create
  · intro s thread code o caught arrives
    refine caught.call thread o ?_
    cases arrives with
    | updateCaps dl ul => simp [updateCaps, Stmt.raises]
    | doStart | doStop | onDestroy | onAvailable | onLost => decide
  · exact fun k answer _ => caught.run k answer
  · exact fun thread => caught

/-- What counts of a task: a start that is refused only has to say so. -/
def counted (refused : Nat → Bool) (k : Nat) (code : List Stmt) : List Stmt :=
  if refused k = true ∧ code = onFailure then [] else code

theorem counted_of_outside {refused : Nat → Bool} {k : Nat} {code : List Stmt} (outside : ¬capsOutline.Inside code) :
    counted refused k code = code := by
  refine if_neg ?_
  rintro ⟨-, rfl⟩
  exact outside (by decide)

/-- A task of the live instance enters its section while no other is in one; the
`Builder.establish` of a start that counts as refused is refused. -/
def Serial (refused : Nat → Bool) (s : State) (k : Nat) (task : Task Site Stmt) (answer : Answer) : Prop :=
  capsOutline.Enters task →
    refused k = true ∧ .buildVpnFd ∈ task.code.head? ∧ answer.ok = false ∨
      refused k = false ∧ capsOutline.Clear (s.view (counted refused)) ∧ s.memory.current = some task.site.service

instance (refused : Nat → Bool) (s : State) (k : Nat) (task : Task Site Stmt) (answer : Answer) :
    Decidable (Serial refused s k task answer) :=
  inferInstanceAs (Decidable (_ → _ ∧ _ ∧ _ ∨ _ ∧ _ ∧ _))

/-- The sections do not overlap, and what is applied or left standing can be enforced. -/
def Faithful (refused : Nat → Bool) (s : State) : Event → Prop
  | .run k answer => ∀ task ∈ s.tasks[k]?, Serial refused s k task answer ∧
    ∀ stmt ∈ task.code.head?, Applicable s.memory task.site.service answer stmt
  | _ => True

instance (refused : Nat → Bool) (s : State) : (event : Event) → Decidable (Faithful refused s event)
  | .run k _ => inferInstanceAs (Decidable (∀ task ∈ s.tasks[k]?, _ ∧ ∀ stmt ∈ task.code.head?, _))
  | .start | .stop | .revoke | .destroy | .applyCaps _ _ | .available _ _ | .lost _ _ | .exit _ =>
    inferInstanceAs (Decidable True)

structure CapsGuarded (refused : Nat → Bool) (s : State) : Prop where
  sections : capsOutline.Guarded CapsPhase.Holds (s.view (counted refused))
  aside : ∀ k task, s.At k task → refused k = true → ¬capsOutline.Inside (counted refused k task.code)

theorem capsGuarded_start (refused : Nat → Bool) : CapsGuarded refused State.start where
  sections :=
    { holds := fun k task here => by cases here
      only := fun j k task other here => by cases here
      rest := fun _ _ connected => by cases connected }
  aside k task here := by cases here

namespace CapsGuarded
variable {refused : Nat → Bool} {s : State} {k : Nat} {task : Task Site Stmt}

theorem replace (guarded : CapsGuarded refused s) {after : Memory} {code : List Stmt} {new : List (Task Site Stmt)}
    (launched : ∀ other ∈ new, ¬capsOutline.Inside other.code)
    (sections : capsOutline.Guarded CapsPhase.Holds
      ((s.view (counted refused)).replace k task after (counted refused k code) new))
    (aside : refused k = true → ¬capsOutline.Inside (counted refused k code)) :
    CapsGuarded refused (s.replace k task after code new) := by
  constructor
  · rwa [System.view_replace after code fun other among j => counted_of_outside (launched other among)]
  · intro j other there hidden
    rcases System.at_replace there with ⟨rfl, rfl⟩ | ⟨-, there⟩ | among
    · exact aside hidden
    · exact guarded.aside j other there hidden
    · rw [counted_of_outside (launched other among)]
      exact launched other among

theorem passes (guarded : CapsGuarded refused s) (here : s.At k task)
    (outside : ¬capsOutline.Inside (counted refused k task.code)) {after : Memory} {code : List Stmt}
    {new : List (Task Site Stmt)}
    (passes : capsOutline.Passes CapsPhase.Holds s.memory after (counted refused k code) new) :
    CapsGuarded refused (s.replace k task after code new) :=
  guarded.replace passes.1 (guarded.sections.passes (System.at_view here) outside passes) fun _ => passes.2.1

/-- A start that is refused sets the status, and no caps. -/
theorem run_refused (guarded : CapsGuarded refused s) (caught : Caught s) {stmt : Stmt} {rest : List Stmt}
    {answer : Answer} (here : s.At k task) (next : task.code = stmt :: rest) (hidden : refused k = true)
    (serial : Serial refused s k task answer) :
    (stmt.exec task.site.service answer s.memory).Leads s.memory rest task.handler
      fun after code new => CapsGuarded refused (s.replace k task after code new) := by
  have idle := guarded.aside k task here hidden
  by_cases failed : stmt :: rest = onFailure
  · obtain ⟨rfl, rfl⟩ := List.cons.inj failed
    refine guarded.passes here idle ⟨by simp, ?_, fun _ _ holds => holds.leave (by decide)⟩
    rw [counted_of_outside] <;> exact not_not.mpr rfl
  have outside : ¬capsOutline.Inside (stmt :: rest) := by
    rwa [next, counted, if_neg fun both => failed both.2] at idle
  by_cases enters : capsOutline.Inside rest
  · obtain ⟨-, first, refusal⟩ := (serial ⟨next ▸ outside, next ▸ enters⟩).resolve_right (by simp [hidden])
    obtain rfl : stmt = .buildVpnFd := by simpa [next] using first
    have recovers : task.handler = onFailure :=
      (caught task here.mem).resolve_right fun calm => by cases calm .buildVpnFd (by simp [next])
    rw [Stmt.exec, refusal, recovers]
    refine guarded.passes here idle ⟨by simp, ?_, fun _ _ => id⟩
    rw [counted, if_pos ⟨hidden, rfl⟩]
    exact not_not.mpr rfl
  · apply (exec_outside (not_not.mp outside) (not_not.mp enters)).mono
    intro after code new passes
    exact guarded.passes here idle (by rwa [counted_of_outside passes.2.1])

theorem run (guarded : CapsGuarded refused s) (caught : Caught s) {answer : Answer}
    (faithful : Faithful refused s (.run k answer)) : CapsGuarded refused (System.run State.exec answer k s) := by
  apply System.run_of_leads guarded
  intro task stmt rest here next
  obtain ⟨serial, applicable⟩ := faithful task here
  by_cases hidden : refused k = true
  · exact guarded.run_refused caught here next hidden serial
  have whole : ∀ code, counted refused k code = code := fun code => if_neg fun both => hidden both.1
  have shown : (s.view (counted refused)).At k task := by
    have there : (s.view (counted refused)).At k { task with code := counted refused k task.code } :=
      System.at_view here
    rwa [whole] at there
  have alone : capsOutline.Enters task → capsOutline.Clear (s.view (counted refused)) ∧
      s.memory.current = some task.site.service :=
    fun enters => ((serial enters).resolve_left fun exempt => hidden exempt.1).2
  have leads := guarded.sections.leads (stmt.exec task.site.service answer s.memory)
    (fun _ _ _ holds => holds) shown next fun enters => (alone enters).1
  refine (leads ?_ ?_).mono ?_
  · intro within holds
    have enters : capsOutline.phase (stmt :: rest) = .out → s.memory.current = some task.site.service := by
      intro outside
      refine (alone ⟨?_, ?_⟩).2 <;> rw [next]
      · exact not_not.mpr outside
      · exact within.resolve_left (not_not.mpr outside)
    refine exec_caps (fun raises => ?_) enters (applicable stmt (by simp [next])) holds
    refine (caught task here.mem).resolve_right fun calm => ?_
    rw [calm stmt (by simp [next])] at raises
    cases raises
  · intro outside after
    exact exec_outside (not_not.mp outside) (not_not.mp after)
  · rintro after code new ⟨launched, sections⟩
    exact guarded.replace launched (by rwa [whole]) fun exempt => absurd exempt hidden

theorem create (guarded : CapsGuarded refused s) : CapsGuarded refused s.create := by
  unfold State.create
  split
  next vacant =>
    refine ⟨Outline.Guarded.memory guarded.sections ?_, guarded.aside⟩
    have alone : ∀ o, s.memory.current ≠ some o := by simp [vacant.1]
    intro phase site holds
    cases phase with
    | out => exact fun connected => absurd (holds connected).1.choose_spec.1 (alone _)
    | launched => exact absurd holds (alone _)
    | offline => exact holds
    | held firm dl ul => exact fun firmly => absurd (holds firmly).1.1 (alone _)
    | bad => exact holds
  next => exact guarded

theorem step (guarded : CapsGuarded refused s) (caught : Caught s) (event : Event)
    (faithful : Faithful refused s event) : CapsGuarded refused (s.step event) := by
  apply State.step_of guarded guarded.create
  · intro s thread code o guarded arrives
    have outside : ¬capsOutline.Inside code := by
      cases arrives with
      | updateCaps dl ul => simp [Outline.Inside, updateCaps, CapsPhase.pre]
      | doStart | doStop | onDestroy | onAvailable | onLost => decide
    constructor
    · unfold State.call
      rw [System.view_spawn fun j => counted_of_outside outside]
      exact Outline.Guarded.spawn guarded.sections outside
    · intro k task here hidden
      rcases System.at_spawn here with there | ⟨-, rfl⟩
      · exact guarded.aside k task there hidden
      · rwa [counted_of_outside outside]
  · rintro k answer rfl
    exact guarded.run caught faithful
  · intro thread
    refine ⟨Outline.Guarded.memory guarded.sections ?_, guarded.aside⟩
    intro phase site
    apply SameCaps.holds
    exact ⟨rfl, rfl, rfl, rfl, rfl, rfl, rfl⟩

end CapsGuarded

/-- A connected service at rest enforces the caps that it shows. -/
theorem published_caps_enforced {refused : Nat → Bool} {events : List Event}
    (faithful : Admits State.step (Faithful refused) State.start events)
    (settled : (events.foldl State.step State.start).Settled)
    (connected : (events.foldl State.step State.start).memory.status = .connected) :
    Enforced (events.foldl State.step State.start).memory := by
  have kept : ∀ s event, CapsGuarded refused s ∧ Caught s → Faithful refused s event →
      CapsGuarded refused (s.step event) ∧ Caught (s.step event) := by
    rintro s event ⟨guarded, caught⟩ allowed
    exact ⟨guarded.step caught event allowed, caught.step event⟩
  obtain ⟨guarded, -⟩ := faithful.invariant (fun s => CapsGuarded refused s ∧ Caught s) kept
    ⟨capsGuarded_start refused, fun task among => by cases among⟩
  have clear : capsOutline.Clear ((events.foldl State.step State.start).view (counted refused)) := by
    intro task among
    obtain ⟨k, here⟩ := System.exists_at among
    obtain ⟨whole, there, rfl⟩ := System.exists_of_at_view here
    rw [settled whole there.mem, counted_of_outside (not_not.mpr rfl)]
    exact not_not.mpr rfl
  exact (guarded.sections.rest clear ⟨.main, 0⟩ connected).2

def manualCaps (dl ul : Option ℚ) : Answer :=
  ⟨true, some (App.SettingsRepository.getAllSettings
    (App.SettingsRepository.setManualUploadCap ul (App.SettingsRepository.setManualDownloadCap dl .empty)))⟩

/-- Two starts, of which the second is refused while the first makes its engine. -/
def startRefused (answer : Answer) : List Event :=
  .start :: Event.runs 0 3 answer ++ .start :: Event.runs 2 3 answer ++ Event.runs 1 3 answer ++
    Event.runs 3 3 answer ++ Event.runs 1 10 answer ++ Event.runs 3 2 { answer with ok := false } ++
      Event.runs 1 18 answer ++ Event.runs 4 2 answer

/-- After `k` tasks of a start: caps from the UI, a lost network and a reconnect. -/
def reconnects (k : Nat) (answer : Answer) (dl ul : ℚ) : List Event :=
  .applyCaps dl ul :: Event.runs k 6 answer ++ .lost 6 0 :: Event.runs (k + 1) 4 answer ++
    .available 6 0 :: Event.runs (k + 2) 2 answer ++ Event.runs (k + 3) 6 answer ++
      .exit 5 :: Event.runs (k + 3) 28 answer

theorem published_caps_enforced_reconnected :
    Enforced ((startRefused (manualCaps (some 5) (some 3)) ++
      reconnects 5 (manualCaps (some 5) (some 3)) 7 2).foldl State.step State.start).memory :=
  @published_caps_enforced (· = 3) _ (by decide +kernel) (by decide +kernel) (by decide +kernel)

def connects (answer : Answer) : List Event :=
  .start :: Event.runs 0 3 answer ++ Event.runs 1 28 answer ++ Event.runs 2 2 answer

/-- Only a download cap is saved: after the reconnect the caps from the UI are shown, and
the engine runs at its own rates. -/
theorem reconnect_drops_caps : ¬∀ events : List Event, (events.foldl State.step State.start).Settled →
    (events.foldl State.step State.start).memory.status = .connected →
      Enforced (events.foldl State.step State.start).memory := by
  intro always
  exact absurd (always (connects (manualCaps (some 5) none) ++ reconnects 3 (manualCaps (some 5) none) 5 5)
    (by decide +kernel) (by decide +kernel)) (by decide +kernel)

end ThrottleVpn.Service
