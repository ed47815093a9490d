import ThrottleVpn.App.ViewModel

/-! The apply button.

Its click handler launches a coroutine for each cap that was entered, and pushes the
caps of the UI state. The coroutines are suspended in the store's edit at once and change
the UI state only when they are resumed, so what is pushed are the caps shown before.
-/

set_option autoImplicit false

namespace ThrottleVpn.App

open Foundation

/-! ### The process -/

structure Companion where
  running : Bool
  downloadCapMbps : ℚ
  uploadCapMbps : ℚ
  deriving DecidableEq, Repr

/-- A coroutine of `viewModelScope` that is suspended in its edit, and whether the store has
made the edit. -/
structure Suspended where
  coroutine : Coroutine
  edited : Bool

/-- The store, the UI state, the coroutines under way, the service, and all calls of
`SpeedLimiterVpnService.applyCaps` so far. -/
structure Process where
  prefs : Preferences
  ui : VpnUiState
  suspended : List Suspended
  companion : Companion
  applied : List (ℚ × ℚ)

def Process.start : Process := ⟨.empty, .initial, [], ⟨true, 0, 0⟩, []⟩

def Process.launch (coroutine : Coroutine) (p : Process) : Process :=
  { p with suspended := p.suspended ++ [⟨coroutine, false⟩] }

def SpeedLimiterVpnService.applyCaps (dl ul : ℚ) (p : Process) : Process :=
  { p with
    companion := if p.companion.running then ⟨true, dl, ul⟩ else p.companion
    applied := p.applied ++ [(dl, ul)] }

def MainViewModel.applyCaps (p : Process) : Process :=
  let s := p.ui
  SpeedLimiterVpnService.applyCaps s.downloadCapMbps s.uploadCapMbps p

/-- The click listener of `btnApply`, with what `toDoubleOrNull` makes of the two texts. -/
def MainActivity.btnApply (etDl etUl : Option ℚ) (p : Process) : Process :=
  let p :=
    match etDl.filter (0 < ·) with
    | some it => p.launch (MainViewModel.setManualDownloadCap (some it))
    | none => p
  let p :=
    match etUl.filter (0 < ·) with
    | some it => p.launch (MainViewModel.setManualUploadCap (some it))
    | none => p
  MainViewModel.applyCaps p

/-! ### What happens after a click -/

inductive Flow where
  | downloadCapMbps
  | uploadCapMbps
  | capPercentage
  | measuredDownloadMbps
  | measuredUploadMbps
  | manualDownloadCap
  | manualUploadCap
  deriving DecidableEq, Repr

def Flow.collect (p : Process) : Flow → VpnUiState
  | downloadCapMbps => { p.ui with downloadCapMbps := p.companion.downloadCapMbps }
  | uploadCapMbps => { p.ui with uploadCapMbps := p.companion.uploadCapMbps }
  | capPercentage => { p.ui with capPercentage := SettingsRepository.capPercentage p.prefs }
  | measuredDownloadMbps => { p.ui with measuredDownloadMbps := SettingsRepository.measuredDownloadMbps p.prefs }
  | measuredUploadMbps => { p.ui with measuredUploadMbps := SettingsRepository.measuredUploadMbps p.prefs }
  | manualDownloadCap => { p.ui with manualDownloadCap := SettingsRepository.manualDownloadCap p.prefs }
  | manualUploadCap => { p.ui with manualUploadCap := SettingsRepository.manualUploadCap p.prefs }

inductive Happening where
  | edit (k : Nat)
  | resume (k : Nat)
  | collect (flow : Flow)
  | act (operation : Operation)
  | publish (companion : Companion)
  deriving DecidableEq

def Process.step (p : Process) : Happening → Process
  | .edit k =>
    match p.suspended[k]? with
    | some ⟨coroutine, false⟩ =>
      { p with prefs := coroutine.edit p.prefs, suspended := p.suspended.set k ⟨coroutine, true⟩ }
    | _ => p
  | .resume k =>
    match p.suspended[k]? with
    | some ⟨coroutine, true⟩ => { p with ui := coroutine.resume p.ui, suspended := p.suspended.eraseIdx k }
    | _ => p
  | .collect flow => { p with ui := flow.collect p }
  | .act operation => p.launch operation.coroutine
  | .publish companion => { p with companion := companion }

theorem applied_step (p : Process) (happening : Happening) : (p.step happening).applied = p.applied := by
  cases happening with
  | edit | resume =>
    simp only [Process.step]
    split <;> rfl
  | collect | act | publish => rfl

theorem applied_run (p : Process) (happenings : List Happening) :
    (happenings.foldl Process.step p).applied = p.applied :=
  run_invariant (fun q => q.applied = p.applied) (fun q happening same => (applied_step q happening).trans same)
    rfl happenings

theorem applied_btnApply (etDl etUl : Option ℚ) (p : Process) :
    (MainActivity.btnApply etDl etUl p).applied = p.applied ++ [(p.ui.downloadCapMbps, p.ui.uploadCapMbps)] := by
  unfold MainActivity.btnApply
  cases etDl.filter (0 < ·) <;> cases etUl.filter (0 < ·) <;> rfl

/-- Whatever happens after a click, the caps that were entered are those pushed last
exactly if they are the ones that were shown before. -/
theorem btnApply_applies_iff (p : Process) (dl ul : ℚ) (happenings : List Happening) :
    (happenings.foldl Process.step (MainActivity.btnApply (some dl) (some ul) p)).applied.getLast? =
      some (dl, ul) ↔ p.ui.downloadCapMbps = dl ∧ p.ui.uploadCapMbps = ul := by
  rw [applied_run, applied_btnApply, List.getLast?_concat, Option.some_inj, Prod.mk.injEq]

/-- 5 and 3 are entered into a fresh process: both coroutines finish, and 0 and 0 were pushed. -/
theorem btnApply_pushes_old_caps : ¬∀ (p : Process) (dl ul : ℚ) (happenings : List Happening), 0 < dl → 0 < ul →
    (happenings.foldl Process.step (MainActivity.btnApply (some dl) (some ul) p)).suspended = [] →
    (happenings.foldl Process.step (MainActivity.btnApply (some dl) (some ul) p)).applied.getLast? =
      some (dl, ul) := by
  intro always
  exact absurd (always .start 5 3 [.edit 0, .edit 1, .resume 1, .resume 0] (by decide +kernel) (by decide +kernel)
    (by rfl)) (by decide +kernel)

end ThrottleVpn.App
