import ThrottleVpn.App.Settings
import ThrottleVpn.Foundation.Refinement

/-! The settings store as the record that its callers see.

The store keeps ten keys, any of which may be missing, and a flag for the manual mode
that its setters maintain. Behind them is a plain record with its defaults, of which
each edit replaces a field.
-/

set_option autoImplicit false

namespace ThrottleVpn.App

open Foundation

inductive Edit where
  | capPercentage (value : Int)
  | manualDownloadCap (mbps : Option ℚ)
  | manualUploadCap (mbps : Option ℚ)
  | autoStartOnBoot (value : Bool)
  | autoReconnect (value : Bool)
  | backgroundMode (value : Bool)
  | showNotification (value : Bool)
  | measuredSpeeds (dl ul : ℚ)
  deriving DecidableEq, Repr

def Edit.transform : Edit → Preferences → Preferences
  | .capPercentage value => SettingsRepository.setCapPercentage value
  | .manualDownloadCap mbps => SettingsRepository.setManualDownloadCap mbps
  | .manualUploadCap mbps => SettingsRepository.setManualUploadCap mbps
  | .autoStartOnBoot value => SettingsRepository.setAutoStartOnBoot value
  | .autoReconnect value => SettingsRepository.setAutoReconnect value
  | .backgroundMode value => SettingsRepository.setBackgroundMode value
  | .showNotification value => SettingsRepository.setShowNotification value
  | .measuredSpeeds dl ul => SettingsRepository.setMeasuredSpeeds dl ul

def Preferences.edit (prefs : Preferences) (edit : Edit) : Preferences := edit.transform prefs

namespace AppSettings

def defaults : AppSettings := ⟨90, none, none, false, true, true, true, 0, 0⟩

/-- What an edit means to those who read the settings. -/
def edit (settings : AppSettings) : Edit → AppSettings
  | .capPercentage value => { settings with capPercentage := coerceIn value 80 95 }
  | .manualDownloadCap mbps => { settings with manualDownloadCapMbps := mbps }
  | .manualUploadCap mbps => { settings with manualUploadCapMbps := mbps }
  | .autoStartOnBoot value => { settings with autoStartOnBoot := value }
  | .autoReconnect value => { settings with autoReconnect := value }
  | .backgroundMode value => { settings with backgroundMode := value }
  | .showNotification value => { settings with showNotification := value }
  | .measuredSpeeds dl ul => { settings with measuredDownloadMbps := dl, measuredUploadMbps := ul }

def InRange (settings : AppSettings) : Prop := 80 ≤ settings.capPercentage ∧ settings.capPercentage ≤ 95

theorem defaults_inRange : defaults.InRange := by
  unfold InRange
  decide

theorem edit_inRange {settings : AppSettings} (inRange : settings.InRange) (edit : Edit) :
    (settings.edit edit).InRange := by
  cases edit with
  | capPercentage value =>
    show 80 ≤ coerceIn value 80 95 ∧ coerceIn value 80 95 ≤ 95
    unfold coerceIn
    split
    · decide
    next high =>
      split
      · decide
      next low => exact ⟨not_lt.mp high, not_lt.mp low⟩
  | manualDownloadCap | manualUploadCap | autoStartOnBoot | autoReconnect | backgroundMode | showNotification
    | measuredSpeeds => exact inRange

end AppSettings

/-- The snapshot and all flows of the store show a record. -/
structure Preferences.Shows (prefs : Preferences) (settings : AppSettings) : Prop where
  all : SettingsRepository.getAllSettings prefs = settings
  capPercentage : SettingsRepository.capPercentage prefs = settings.capPercentage
  manualDownloadCap : SettingsRepository.manualDownloadCap prefs = settings.manualDownloadCapMbps
  manualUploadCap : SettingsRepository.manualUploadCap prefs = settings.manualUploadCapMbps
  autoStartOnBoot : SettingsRepository.autoStartOnBoot prefs = settings.autoStartOnBoot
  autoReconnect : SettingsRepository.autoReconnect prefs = settings.autoReconnect
  backgroundMode : SettingsRepository.backgroundMode prefs = settings.backgroundMode
  showNotification : SettingsRepository.showNotification prefs = settings.showNotification
  measuredDownloadMbps : SettingsRepository.measuredDownloadMbps prefs = settings.measuredDownloadMbps
  measuredUploadMbps : SettingsRepository.measuredUploadMbps prefs = settings.measuredUploadMbps

namespace SettingsRepository
variable {prefs : Preferences}

theorem consistent_empty : Preferences.empty.Consistent := by simp [Preferences.Consistent, Preferences.empty]

theorem edit_consistent (consistent : prefs.Consistent) (edit : Edit) : (prefs.edit edit).Consistent := by
  cases edit with
  | manualDownloadCap mbps => exact setManualDownloadCap_consistent consistent mbps
  | manualUploadCap mbps => exact setManualUploadCap_consistent consistent mbps
  | capPercentage | autoStartOnBoot | autoReconnect | backgroundMode | showNotification | measuredSpeeds =>
    exact consistent

theorem getAllSettings_manual (consistent : prefs.Consistent) :
    (getAllSettings prefs).manualDownloadCapMbps = prefs.manualDl ∧
      (getAllSettings prefs).manualUploadCapMbps = prefs.manualUl := by
  -- the snapshot reads a missing flag as false, the flows ask for true
  have mode : (prefs.manualMode.getD false = true) = (prefs.manualMode = some true) := by
    cases prefs.manualMode <;> simp
  have download := manualDownloadCap_eq consistent
  have upload := manualUploadCap_eq consistent
  simp only [manualDownloadCap, manualUploadCap] at download upload
  simp only [getAllSettings, mode]
  exact ⟨download, upload⟩

theorem getAllSettings_eq (consistent : prefs.Consistent) :
    getAllSettings prefs =
      { capPercentage := capPercentage prefs
        manualDownloadCapMbps := prefs.manualDl
        manualUploadCapMbps := prefs.manualUl
        autoStartOnBoot := autoStartOnBoot prefs
        autoReconnect := autoReconnect prefs
        backgroundMode := backgroundMode prefs
        showNotification := showNotification prefs
        measuredDownloadMbps := measuredDownloadMbps prefs
        measuredUploadMbps := measuredUploadMbps prefs } := by
  obtain ⟨download, upload⟩ := getAllSettings_manual consistent
  rw [AppSettings.mk.injEq]
  exact ⟨rfl, download, upload, rfl, rfl, rfl, rfl, rfl, rfl⟩

theorem getAllSettings_edit (consistent : prefs.Consistent) (edit : Edit) :
    getAllSettings (prefs.edit edit) = (getAllSettings prefs).edit edit := by
  rw [getAllSettings_eq consistent, getAllSettings_eq (edit_consistent consistent edit)]
  cases edit with
  | manualDownloadCap mbps | manualUploadCap mbps => cases mbps <;> rfl
  | capPercentage | autoStartOnBoot | autoReconnect | backgroundMode | showNotification | measuredSpeeds => rfl

theorem shows_of_consistent (consistent : prefs.Consistent) : prefs.Shows (getAllSettings prefs) := by
  obtain ⟨download, upload⟩ := getAllSettings_manual consistent
  exact ⟨rfl, rfl, (manualDownloadCap_eq consistent).trans download.symm,
    (manualUploadCap_eq consistent).trans upload.symm, rfl, rfl, rfl, rfl, rfl, rfl⟩

/-- However the settings were edited since the application was installed, the store
shows the record to which the same edits were made, and its percentage is in range. -/
theorem store_is_record (edits : List Edit) :
    let settings := edits.foldl AppSettings.edit .defaults
    (edits.foldl Preferences.edit .empty).Shows settings ∧ settings.InRange := by
  intro settings
  have same : getAllSettings (edits.foldl Preferences.edit .empty) =
      edits.foldl AppSettings.edit (getAllSettings .empty) :=
    view_foldl Preferences.Consistent (fun _ edit consistent => edit_consistent consistent edit)
      (fun _ edit consistent => getAllSettings_edit consistent edit) consistent_empty edits
  have began : getAllSettings .empty = .defaults := rfl
  rw [began] at same
  constructor
  · simp only [settings]
    rw [← same]
    exact shows_of_consistent
      (run_invariant Preferences.Consistent (fun _ edit consistent => edit_consistent consistent edit)
        consistent_empty edits)
  · exact run_invariant AppSettings.InRange (fun _ edit inRange => AppSettings.edit_inRange inRange edit)
      AppSettings.defaults_inRange edits

end SettingsRepository

end ThrottleVpn.App
