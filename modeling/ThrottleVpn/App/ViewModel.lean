import ThrottleVpn.App.Settings
import ThrottleVpn.Foundation.Runs
import Mathlib.Tactic.NormNum

/-! The view model's caps.

The view model computes the caps step by step as the user acts; the service computes
them from the settings store. Each operation of the view model edits the store, is
suspended until that is done, and then changes the UI state; the store's flows reach
the UI state before or after that.
-/

set_option autoImplicit false

namespace ThrottleVpn.App

open Foundation

structure VpnUiState where
  downloadCapMbps : ℚ
  uploadCapMbps : ℚ
  capPercentage : Int
  measuredDownloadMbps : ℚ
  measuredUploadMbps : ℚ
  manualDownloadCap : Option ℚ
  manualUploadCap : Option ℚ
  deriving DecidableEq, Repr

def VpnUiState.initial : VpnUiState := ⟨0, 0, 90, 0, 0, none, none⟩

structure Coroutine where
  edit : Preferences → Preferences
  resume : VpnUiState → VpnUiState

namespace MainViewModel

def recalcCaps (dlMax ulMax : ℚ) (pct : Int) (ui : VpnUiState) : VpnUiState :=
  let dl := dlMax * pct / 100
  let ul := ulMax * pct / 100
  { ui with
    downloadCapMbps := dl
    uploadCapMbps := ul
    measuredDownloadMbps := dlMax
    measuredUploadMbps := ulMax }

def runSpeedTest (downloadMbps uploadMbps : ℚ) : Coroutine where
  edit := fun prefs =>
    if 0 < downloadMbps then SettingsRepository.setMeasuredSpeeds downloadMbps uploadMbps prefs else prefs
  resume := fun ui =>
    if 0 < downloadMbps then
      let pct := ui.capPercentage
      recalcCaps downloadMbps uploadMbps pct ui
    else ui

def setCapPercentage (pct : Int) : Coroutine where
  edit := SettingsRepository.setCapPercentage pct
  resume := fun s =>
    if s.manualDownloadCap = none ∧ 0 < s.measuredDownloadMbps then
      recalcCaps s.measuredDownloadMbps s.measuredUploadMbps pct s
    else s

def setManualDownloadCap (mbps : Option ℚ) : Coroutine where
  edit := SettingsRepository.setManualDownloadCap mbps
  resume := fun s =>
    { s with
      downloadCapMbps := effectiveCap mbps s.measuredDownloadMbps s.capPercentage
      manualDownloadCap := mbps }

def setManualUploadCap (mbps : Option ℚ) : Coroutine where
  edit := SettingsRepository.setManualUploadCap mbps
  resume := fun s =>
    { s with
      uploadCapMbps := effectiveCap mbps s.measuredUploadMbps s.capPercentage
      manualUploadCap := mbps }

def resetSpeeds : Coroutine where
  edit := fun prefs =>
    SettingsRepository.setManualUploadCap none
      (SettingsRepository.setManualDownloadCap none (SettingsRepository.setMeasuredSpeeds 0 0 prefs))
  resume := fun ui =>
    { ui with
      measuredDownloadMbps := 0
      measuredUploadMbps := 0
      downloadCapMbps := 0
      uploadCapMbps := 0
      manualDownloadCap := none
      manualUploadCap := none }

/-- The collectors of the settings flows. The service's own cap flows are silent while
the VPN is stopped. -/
def observe (prefs : Preferences) (ui : VpnUiState) : VpnUiState :=
  { ui with
    capPercentage := SettingsRepository.capPercentage prefs
    measuredDownloadMbps := SettingsRepository.measuredDownloadMbps prefs
    measuredUploadMbps := SettingsRepository.measuredUploadMbps prefs
    manualDownloadCap := SettingsRepository.manualDownloadCap prefs
    manualUploadCap := SettingsRepository.manualUploadCap prefs }

end MainViewModel

structure State where
  prefs : Preferences
  ui : VpnUiState
  deriving DecidableEq, Repr

def State.start : State := ⟨.empty, .initial⟩

/-- A coroutine run to its end and its flows delivered; `early` says whether they were
delivered before it was resumed as well. -/
def Coroutine.run (coroutine : Coroutine) (early : Bool) (state : State) : State :=
  let prefs := coroutine.edit state.prefs
  let ui := coroutine.resume (if early then MainViewModel.observe prefs state.ui else state.ui)
  ⟨prefs, MainViewModel.observe prefs ui⟩

abbrev Mbps := { mbps : ℚ // 0 < mbps }

abbrev Percentage := { pct : Int // 80 ≤ pct ∧ pct ≤ 95 }

inductive Operation where
  | runSpeedTest (downloadMbps uploadMbps : Mbps)
  | setCapPercentage (pct : Percentage)
  | setManualDownloadCap (mbps : Option Mbps)
  | setManualUploadCap (mbps : Option Mbps)
  | resetSpeeds
  deriving DecidableEq

def Operation.coroutine : Operation → Coroutine
  | runSpeedTest dl ul => MainViewModel.runSpeedTest dl ul
  | setCapPercentage pct => MainViewModel.setCapPercentage pct
  | setManualDownloadCap mbps => MainViewModel.setManualDownloadCap (mbps.map (·.val))
  | setManualUploadCap mbps => MainViewModel.setManualUploadCap (mbps.map (·.val))
  | resetSpeeds => MainViewModel.resetSpeeds

def State.step (state : State) (action : Operation × Bool) : State :=
  action.1.coroutine.run action.2 state

/-- The caps shown, and pushed by `applyCaps`, are those the service would restore. -/
def State.Agrees (state : State) : Prop :=
  (state.ui.downloadCapMbps, state.ui.uploadCapMbps) = savedCaps (SettingsRepository.getAllSettings state.prefs)

instance (state : State) : Decidable state.Agrees := inferInstanceAs (Decidable (_ = _))

/-- No manual cap, or one that is what the percentage gives anyway. -/
def Automatic (manual : Option ℚ) (auto : ℚ) : Prop := manual = none ∨ manual = some auto

instance (manual : Option ℚ) (auto : ℚ) : Decidable (Automatic manual auto) :=
  inferInstanceAs (Decidable (_ ∨ _))

def VpnUiState.Recomputes (ui : VpnUiState) : Prop := ui.manualDownloadCap = none ∧ 0 < ui.measuredDownloadMbps

instance (ui : VpnUiState) : Decidable ui.Recomputes := inferInstanceAs (Decidable (_ ∧ _))

/-- A speed test meets no manual cap. A move of the slider meets no manual upload cap
while it recomputes the caps, and one, or nothing to recompute, while it does not. -/
def State.Undisturbed (state : State) : Operation × Bool → Prop
  | (.runSpeedTest dl ul, _) =>
    Automatic state.ui.manualDownloadCap (dl.val * state.ui.capPercentage / 100) ∧
      Automatic state.ui.manualUploadCap (ul.val * state.ui.capPercentage / 100)
  | (.setCapPercentage pct, _) =>
    (state.ui.Recomputes →
      Automatic state.ui.manualUploadCap (state.ui.measuredUploadMbps * pct.val / 100)) ∧
    (¬state.ui.Recomputes →
      state.ui.manualUploadCap ≠ none ∨ state.ui.measuredUploadMbps = 0 ∨ pct.val = state.ui.capPercentage)
  | (.setManualDownloadCap _, _) | (.setManualUploadCap _, _) | (.resetSpeeds, _) => True

instance (state : State) : (action : Operation × Bool) → Decidable (state.Undisturbed action)
  | (.runSpeedTest _ _, _) => inferInstanceAs (Decidable (_ ∧ _))
  | (.setCapPercentage _, _) => inferInstanceAs (Decidable ((_ → _) ∧ (_ → _)))
  | (.setManualDownloadCap _, _) | (.setManualUploadCap _, _) | (.resetSpeeds, _) =>
    inferInstanceAs (Decidable True)

/-! ### What every operation keeps -/

/-- The UI state shows the store, and the store is in order. -/
structure State.Settled (state : State) : Prop where
  shown : MainViewModel.observe state.prefs state.ui = state.ui
  consistent : state.prefs.Consistent
  measured : state.prefs.MeasuredPair

theorem settled_start : State.start.Settled where
  shown := rfl
  consistent := by simp [Preferences.Consistent, State.start, Preferences.empty]
  measured := .inr ⟨rfl, rfl⟩

theorem observe_observe (prefs : Preferences) (ui : VpnUiState) :
    MainViewModel.observe prefs (MainViewModel.observe prefs ui) = MainViewModel.observe prefs ui := rfl

open SettingsRepository in
theorem State.Settled.step {state : State} (settled : state.Settled) (action : Operation × Bool) :
    (state.step action).Settled where
  shown := observe_observe _ _
  consistent := by
    obtain ⟨operation, early⟩ := action
    have kept := settled.consistent
    cases operation with
    | runSpeedTest dl ul =>
      simp only [State.step, Operation.coroutine, Coroutine.run, MainViewModel.runSpeedTest, if_pos dl.2]
      exact kept
    | setCapPercentage pct => exact kept
    | setManualDownloadCap mbps => exact setManualDownloadCap_consistent kept _
    | setManualUploadCap mbps => exact setManualUploadCap_consistent kept _
    | resetSpeeds =>
      apply setManualUploadCap_consistent
      exact @setManualDownloadCap_consistent (setMeasuredSpeeds 0 0 state.prefs) kept none
  measured := by
    obtain ⟨operation, early⟩ := action
    have kept := settled.measured
    cases operation with
    | runSpeedTest dl ul =>
      simp only [State.step, Operation.coroutine, Coroutine.run, MainViewModel.runSpeedTest, if_pos dl.2]
      exact .inl ⟨dl.2, ul.2⟩
    | setCapPercentage pct => exact kept
    | setManualDownloadCap mbps => cases mbps <;> exact kept
    | setManualUploadCap mbps => cases mbps <;> exact kept
    | resetSpeeds => exact .inr ⟨rfl, rfl⟩

/-! ### When the two computations agree -/

theorem effectiveCap_auto_iff {manual : Option ℚ} {measured : ℚ} {pct : Int} :
    measured * pct / 100 = effectiveCap manual measured pct ↔ Automatic manual (measured * pct / 100) := by
  unfold effectiveCap Automatic
  cases manual with
  | none => simp
  | some mbps => simp [eq_comm]

theorem effectiveCap_pct_iff {manual : Option ℚ} {measured : ℚ} {old new : Int} :
    effectiveCap manual measured old = effectiveCap manual measured new ↔
      manual ≠ none ∨ measured = 0 ∨ new = old := by
  unfold effectiveCap
  cases manual with
  | some mbps => simp
  | none =>
    simp only [Option.getD_none, ne_eq, not_true_eq_false, false_or]
    rw [div_left_inj' (by norm_num : (100 : ℚ) ≠ 0), mul_eq_mul_left_iff, Int.cast_inj, or_comm,
      @eq_comm _ old new]

theorem Coroutine.resumed (coroutine : Coroutine) (early : Bool) (state : State) :
    ∃ seen, coroutine.run early state = ⟨coroutine.edit state.prefs,
        MainViewModel.observe (coroutine.edit state.prefs) (coroutine.resume seen)⟩ ∧
      (seen = state.ui ∨ seen = MainViewModel.observe (coroutine.edit state.prefs) state.ui) := by
  cases early with
  | false => exact ⟨_, rfl, .inl rfl⟩
  | true => exact ⟨_, rfl, .inr rfl⟩

namespace State.Settled
variable {state : State} (settled : state.Settled)
include settled

theorem agrees_iff : state.Agrees ↔
    state.ui.downloadCapMbps = effectiveCap state.prefs.manualDl
      (SettingsRepository.measuredDownloadMbps state.prefs) (SettingsRepository.capPercentage state.prefs) ∧
    state.ui.uploadCapMbps = effectiveCap state.prefs.manualUl
      (SettingsRepository.measuredUploadMbps state.prefs) (SettingsRepository.capPercentage state.prefs) := by
  unfold State.Agrees
  rw [SettingsRepository.savedCaps_eq, Prod.mk.injEq,
    SettingsRepository.manualDownloadCap_eq settled.consistent,
    SettingsRepository.manualUploadCap_eq settled.consistent]

theorem fields :
    SettingsRepository.capPercentage state.prefs = state.ui.capPercentage ∧
    SettingsRepository.measuredDownloadMbps state.prefs = state.ui.measuredDownloadMbps ∧
    SettingsRepository.measuredUploadMbps state.prefs = state.ui.measuredUploadMbps ∧
    state.prefs.manualDl = state.ui.manualDownloadCap ∧ state.prefs.manualUl = state.ui.manualUploadCap := by
  rw [← SettingsRepository.manualDownloadCap_eq settled.consistent,
    ← SettingsRepository.manualUploadCap_eq settled.consistent]
  refine ⟨?_, ?_, ?_, ?_, ?_⟩
  · exact congrArg VpnUiState.capPercentage settled.shown
  · exact congrArg VpnUiState.measuredDownloadMbps settled.shown
  · exact congrArg VpnUiState.measuredUploadMbps settled.shown
  · exact congrArg VpnUiState.manualDownloadCap settled.shown
  · exact congrArg VpnUiState.manualUploadCap settled.shown

theorem runSpeedTest_agrees_iff (dl ul : Mbps) (early : Bool) :
    (state.step (.runSpeedTest dl ul, early)).Agrees ↔ state.Undisturbed (.runSpeedTest dl ul, early) := by
  obtain ⟨pct, -, -, manualDl, manualUl⟩ := settled.fields
  have positive : MainViewModel.runSpeedTest dl ul = ⟨SettingsRepository.setMeasuredSpeeds dl ul,
      fun ui => MainViewModel.recalcCaps dl ul ui.capPercentage ui⟩ := by
    simp only [MainViewModel.runSpeedTest, if_pos dl.2]
  obtain ⟨seen, ran, resumes⟩ := (MainViewModel.runSpeedTest dl ul).resumed early state
  have same : seen.capPercentage = state.ui.capPercentage := by
    rw [positive] at resumes
    rcases resumes with rfl | rfl
    · rfl
    · exact pct
  rw [(settled.step _).agrees_iff, show state.step (.runSpeedTest dl ul, early) = _ from ran, positive]
  change dl.val * seen.capPercentage / 100 = effectiveCap state.prefs.manualDl dl
        (SettingsRepository.capPercentage state.prefs) ∧
      ul.val * seen.capPercentage / 100 = effectiveCap state.prefs.manualUl ul
        (SettingsRepository.capPercentage state.prefs) ↔
    Automatic state.ui.manualDownloadCap (dl.val * state.ui.capPercentage / 100) ∧
      Automatic state.ui.manualUploadCap (ul.val * state.ui.capPercentage / 100)
  rw [same, pct, manualDl, manualUl, effectiveCap_auto_iff, effectiveCap_auto_iff]

theorem setCapPercentage_agrees_iff (agrees : state.Agrees) (pct : Percentage) (early : Bool) :
    (state.step (.setCapPercentage pct, early)).Agrees ↔ state.Undisturbed (.setCapPercentage pct, early) := by
  obtain ⟨shownPct, measuredDl, measuredUl, manualDl, manualUl⟩ := settled.fields
  have inside : coerceIn pct 80 95 = pct := by
    unfold coerceIn
    rw [if_neg (not_lt.mpr pct.2.1), if_neg (not_lt.mpr pct.2.2)]
  obtain ⟨seen, ran, resumes⟩ := (MainViewModel.setCapPercentage pct).resumed early state
  -- the slider's own edit shows in the percentage alone, which is not read
  have same : ∃ other, seen = { state.ui with capPercentage := other } := by
    rcases resumes with rfl | rfl
    · exact ⟨_, rfl⟩
    · refine ⟨coerceIn pct 80 95, ?_⟩
      rw [← settled.shown]
      rfl
  obtain ⟨other, rfl⟩ := same
  obtain ⟨downloadOld, uploadOld⟩ := settled.agrees_iff.mp agrees
  rw [(settled.step _).agrees_iff, show state.step (.setCapPercentage pct, early) = _ from ran]
  have flows : SettingsRepository.capPercentage (SettingsRepository.setCapPercentage pct state.prefs) = pct :=
    inside
  simp only [MainViewModel.setCapPercentage, flows]
  by_cases recomputes : state.ui.Recomputes
  · -- both caps are written, also the one with a manual value
    have recomputed : (if ({ state.ui with capPercentage := other } : VpnUiState).manualDownloadCap = none ∧
          0 < state.ui.measuredDownloadMbps then
        MainViewModel.recalcCaps state.ui.measuredDownloadMbps state.ui.measuredUploadMbps pct
          { state.ui with capPercentage := other } else { state.ui with capPercentage := other }) =
        MainViewModel.recalcCaps state.ui.measuredDownloadMbps state.ui.measuredUploadMbps pct
          { state.ui with capPercentage := other } := if_pos recomputes
    rw [recomputed]
    change state.ui.measuredDownloadMbps * pct.val / 100 = effectiveCap state.prefs.manualDl
          (SettingsRepository.measuredDownloadMbps state.prefs) pct ∧
        state.ui.measuredUploadMbps * pct.val / 100 = effectiveCap state.prefs.manualUl
          (SettingsRepository.measuredUploadMbps state.prefs) pct ↔ _
    rw [measuredDl, measuredUl, manualDl, manualUl, effectiveCap_auto_iff, effectiveCap_auto_iff]
    have free : Automatic state.ui.manualDownloadCap (state.ui.measuredDownloadMbps * pct.val / 100) :=
      .inl recomputes.1
    simp only [free, true_and, State.Undisturbed, recomputes, forall_const, not_true_eq_false, false_imp_iff,
      and_true]
  · -- both caps stay, and with them what the service derives
    have kept : (if ({ state.ui with capPercentage := other } : VpnUiState).manualDownloadCap = none ∧
          0 < state.ui.measuredDownloadMbps then
        MainViewModel.recalcCaps state.ui.measuredDownloadMbps state.ui.measuredUploadMbps pct
          { state.ui with capPercentage := other } else { state.ui with capPercentage := other }) =
        { state.ui with capPercentage := other } := if_neg recomputes
    rw [kept]
    change state.ui.downloadCapMbps = effectiveCap state.prefs.manualDl
          (SettingsRepository.measuredDownloadMbps state.prefs) pct ∧
        state.ui.uploadCapMbps = effectiveCap state.prefs.manualUl
          (SettingsRepository.measuredUploadMbps state.prefs) pct ↔ _
    rw [downloadOld, uploadOld, shownPct, measuredDl, measuredUl, manualDl, manualUl, effectiveCap_pct_iff,
      effectiveCap_pct_iff]
    -- without a manual download cap nothing has been measured
    have fixed : state.ui.manualDownloadCap ≠ none ∨ state.ui.measuredDownloadMbps = 0 := by
      by_contra moves
      rw [not_or, not_ne_iff] at moves
      rcases settled.measured with ⟨positive, -⟩ | ⟨zero, -⟩
      · exact recomputes ⟨moves.1, measuredDl ▸ positive⟩
      · exact moves.2 (measuredDl.symm.trans zero)
    have still : state.ui.manualDownloadCap ≠ none ∨ state.ui.measuredDownloadMbps = 0 ∨
        pct.val = state.ui.capPercentage := by
      rcases fixed with manual | zero
      · exact .inl manual
      · exact .inr (.inl zero)
    simp only [still, true_and, State.Undisturbed, recomputes, false_imp_iff, not_false_eq_true, forall_const]

theorem setManualDownloadCap_agrees (agrees : state.Agrees) (mbps : Option Mbps) (early : Bool) :
    (state.step (.setManualDownloadCap mbps, early)).Agrees := by
  obtain ⟨-, uploadOld⟩ := settled.agrees_iff.mp agrees
  obtain ⟨pct, measuredDl, -, -, -⟩ := settled.fields
  obtain ⟨seen, ran, resumes⟩ := (MainViewModel.setManualDownloadCap (mbps.map (·.val))).resumed early state
  have same : seen.measuredDownloadMbps = state.ui.measuredDownloadMbps ∧
      seen.capPercentage = state.ui.capPercentage ∧ seen.uploadCapMbps = state.ui.uploadCapMbps := by
    rcases resumes with rfl | rfl
    · exact ⟨rfl, rfl, rfl⟩
    · cases mbps <;> exact ⟨measuredDl, pct, rfl⟩
  rw [(settled.step _).agrees_iff, show state.step (.setManualDownloadCap mbps, early) = _ from ran]
  have download : effectiveCap (mbps.map (·.val)) seen.measuredDownloadMbps seen.capPercentage =
      effectiveCap (mbps.map (·.val)) (SettingsRepository.measuredDownloadMbps state.prefs)
        (SettingsRepository.capPercentage state.prefs) := by rw [same.1, same.2.1, pct, measuredDl]
  have upload := same.2.2.trans uploadOld
  cases mbps <;> exact ⟨download, upload⟩

theorem setManualUploadCap_agrees (agrees : state.Agrees) (mbps : Option Mbps) (early : Bool) :
    (state.step (.setManualUploadCap mbps, early)).Agrees := by
  obtain ⟨downloadOld, -⟩ := settled.agrees_iff.mp agrees
  obtain ⟨pct, -, measuredUl, -, -⟩ := settled.fields
  obtain ⟨seen, ran, resumes⟩ := (MainViewModel.setManualUploadCap (mbps.map (·.val))).resumed early state
  have same : seen.measuredUploadMbps = state.ui.measuredUploadMbps ∧
      seen.capPercentage = state.ui.capPercentage ∧ seen.downloadCapMbps = state.ui.downloadCapMbps := by
    rcases resumes with rfl | rfl
    · exact ⟨rfl, rfl, rfl⟩
    · cases mbps <;> exact ⟨measuredUl, pct, rfl⟩
  rw [(settled.step _).agrees_iff, show state.step (.setManualUploadCap mbps, early) = _ from ran]
  have upload : effectiveCap (mbps.map (·.val)) seen.measuredUploadMbps seen.capPercentage =
      effectiveCap (mbps.map (·.val)) (SettingsRepository.measuredUploadMbps state.prefs)
        (SettingsRepository.capPercentage state.prefs) := by rw [same.1, same.2.1, pct, measuredUl]
  have download := same.2.2.trans downloadOld
  cases mbps <;> exact ⟨download, upload⟩

theorem resetSpeeds_agrees (early : Bool) : (state.step (.resetSpeeds, early)).Agrees := by
  obtain ⟨seen, ran, -⟩ := MainViewModel.resetSpeeds.resumed early state
  rw [(settled.step _).agrees_iff, show state.step (.resetSpeeds, early) = _ from ran]
  have zero : ∀ pct : Int, (0 : ℚ) = effectiveCap none 0 pct := fun pct => by simp [effectiveCap]
  exact ⟨zero _, zero _⟩

/-- After an operation the caps agree exactly if it left no manual cap aside. -/
theorem step_agrees_iff (agrees : state.Agrees) (action : Operation × Bool) :
    (state.step action).Agrees ↔ state.Undisturbed action := by
  obtain ⟨operation, early⟩ := action
  cases operation with
  | runSpeedTest dl ul => exact settled.runSpeedTest_agrees_iff dl ul early
  | setCapPercentage pct => exact settled.setCapPercentage_agrees_iff agrees pct early
  | setManualDownloadCap mbps => exact iff_of_true (settled.setManualDownloadCap_agrees agrees mbps early) trivial
  | setManualUploadCap mbps => exact iff_of_true (settled.setManualUploadCap_agrees agrees mbps early) trivial
  | resetSpeeds => exact iff_of_true (settled.resetSpeeds_agrees early) trivial

end State.Settled

/-- In every run of the view model, the caps shown are at all times those the service
would restore exactly if no speed test and no move of the slider disregards a manual cap. -/
theorem caps_agree_iff (actions : List (Operation × Bool)) :
    (∀ past, past <+: actions → (past.foldl State.step State.start).Agrees) ↔
      Admits State.step State.Undisturbed State.start actions := by
  have agrees : State.start.Agrees := by decide +kernel
  rw [forall_prefix_iff, and_iff_right agrees]
  apply admits_congr fun state => state.Settled ∧ state.Agrees
  · exact fun state action holds => holds.1.step_agrees_iff holds.2 action
  · intro state action holds undisturbed
    exact ⟨holds.1.step action, (holds.1.step_agrees_iff holds.2 action).mpr undisturbed⟩
  · exact ⟨settled_start, agrees⟩

/-- A speed test (100 down, 50 up), a manual upload cap of 10, the slider to 80 %: the
UI pushes 40 for the upload, the service would restore 10. -/
theorem slider_overrides_upload_cap :
    ¬∀ actions : List (Operation × Bool), (actions.foldl State.step State.start).Agrees := by
  intro agrees
  exact absurd (agrees [(.runSpeedTest ⟨100, by norm_num⟩ ⟨50, by norm_num⟩, false),
    (.setManualUploadCap (some ⟨10, by norm_num⟩), false), (.setCapPercentage ⟨80, by decide⟩, false)])
    (by decide +kernel)

end ThrottleVpn.App
