import Mathlib.Algebra.Order.Field.Rat
import Mathlib.Data.Rat.Defs

/-! The settings store and the caps that the service derives from it.

Speeds are rationals: rounding of doubles is left out. A key that was never written
reads as `none`, and every read names its default.
-/

set_option autoImplicit false

namespace ThrottleVpn.App

structure Preferences where
  capPct : Option Int
  manualDl : Option ℚ
  manualUl : Option ℚ
  manualMode : Option Bool
  autoBoot : Option Bool
  autoReconnect : Option Bool
  bgMode : Option Bool
  showNotif : Option Bool
  measDl : Option ℚ
  measUl : Option ℚ
  deriving DecidableEq, Repr

def Preferences.empty : Preferences := ⟨none, none, none, none, none, none, none, none, none, none⟩

structure AppSettings where
  capPercentage : Int
  manualDownloadCapMbps : Option ℚ
  manualUploadCapMbps : Option ℚ
  autoStartOnBoot : Bool
  autoReconnect : Bool
  backgroundMode : Bool
  showNotification : Bool
  measuredDownloadMbps : ℚ
  measuredUploadMbps : ℚ
  deriving DecidableEq, Repr

def coerceIn (value low high : Int) : Int :=
  if value < low then low else if high < value then high else value

def effectiveCap (manual : Option ℚ) (measured : ℚ) (pct : Int) : ℚ :=
  manual.getD (measured * pct / 100)

namespace SettingsRepository

/-! ### Flows -/

def capPercentage (prefs : Preferences) : Int := prefs.capPct.getD 90

def manualDownloadCap (prefs : Preferences) : Option ℚ :=
  if prefs.manualMode = some true then prefs.manualDl else none

def manualUploadCap (prefs : Preferences) : Option ℚ :=
  if prefs.manualMode = some true then prefs.manualUl else none

def autoStartOnBoot (prefs : Preferences) : Bool := prefs.autoBoot.getD false

def autoReconnect (prefs : Preferences) : Bool := prefs.autoReconnect.getD true

def backgroundMode (prefs : Preferences) : Bool := prefs.bgMode.getD true

def showNotification (prefs : Preferences) : Bool := prefs.showNotif.getD true

def measuredDownloadMbps (prefs : Preferences) : ℚ := prefs.measDl.getD 0

def measuredUploadMbps (prefs : Preferences) : ℚ := prefs.measUl.getD 0

/-! ### Edits -/

def setCapPercentage (value : Int) (prefs : Preferences) : Preferences :=
  { prefs with capPct := some (coerceIn value 80 95) }

def setManualDownloadCap (mbps : Option ℚ) (prefs : Preferences) : Preferences :=
  match mbps with
  | some mbps => { prefs with manualDl := some mbps, manualMode := some true }
  | none =>
    { prefs with
      manualDl := none
      manualMode := if prefs.manualUl = none then some false else prefs.manualMode }

def setManualUploadCap (mbps : Option ℚ) (prefs : Preferences) : Preferences :=
  match mbps with
  | some mbps => { prefs with manualUl := some mbps, manualMode := some true }
  | none =>
    { prefs with
      manualUl := none
      manualMode := if prefs.manualDl = none then some false else prefs.manualMode }

def setAutoStartOnBoot (value : Bool) (prefs : Preferences) : Preferences := { prefs with autoBoot := some value }

def setAutoReconnect (value : Bool) (prefs : Preferences) : Preferences := { prefs with autoReconnect := some value }

def setBackgroundMode (value : Bool) (prefs : Preferences) : Preferences := { prefs with bgMode := some value }

def setShowNotification (value : Bool) (prefs : Preferences) : Preferences := { prefs with showNotif := some value }

def setMeasuredSpeeds (dl ul : ℚ) (prefs : Preferences) : Preferences :=
  { prefs with measDl := some dl, measUl := some ul }

def getAllSettings (prefs : Preferences) : AppSettings :=
  let manual := prefs.manualMode.getD false
  { capPercentage := prefs.capPct.getD 90
    manualDownloadCapMbps := if manual then prefs.manualDl else none
    manualUploadCapMbps := if manual then prefs.manualUl else none
    autoStartOnBoot := prefs.autoBoot.getD false
    autoReconnect := prefs.autoReconnect.getD true
    backgroundMode := prefs.bgMode.getD true
    showNotification := prefs.showNotif.getD true
    measuredDownloadMbps := prefs.measDl.getD 0
    measuredUploadMbps := prefs.measUl.getD 0 }

end SettingsRepository

def savedCaps (s : AppSettings) : ℚ × ℚ :=
  (effectiveCap s.manualDownloadCapMbps s.measuredDownloadMbps s.capPercentage,
    effectiveCap s.manualUploadCapMbps s.measuredUploadMbps s.capPercentage)

/-! ### What the edits keep -/

/-- Manual mode is on exactly while a manual cap is stored. -/
def Preferences.Consistent (prefs : Preferences) : Prop :=
  prefs.manualMode = some true ↔ prefs.manualDl ≠ none ∨ prefs.manualUl ≠ none

def Preferences.MeasuredPair (prefs : Preferences) : Prop :=
  (0 < prefs.measDl.getD 0 ∧ 0 < prefs.measUl.getD 0) ∨
    (prefs.measDl.getD 0 = 0 ∧ prefs.measUl.getD 0 = 0)

namespace SettingsRepository
variable {prefs : Preferences}

theorem setManualDownloadCap_consistent (consistent : prefs.Consistent) (mbps : Option ℚ) :
    (setManualDownloadCap mbps prefs).Consistent := by
  unfold Preferences.Consistent at *
  cases mbps with
  | some mbps => simp [setManualDownloadCap]
  | none =>
    cases other : prefs.manualUl with
    | none => simp [setManualDownloadCap, other]
    | some kept => simp [setManualDownloadCap, other, consistent]

theorem setManualUploadCap_consistent (consistent : prefs.Consistent) (mbps : Option ℚ) :
    (setManualUploadCap mbps prefs).Consistent := by
  unfold Preferences.Consistent at *
  cases mbps with
  | some mbps => simp [setManualUploadCap]
  | none =>
    cases other : prefs.manualDl with
    | none => simp [setManualUploadCap, other]
    | some kept => simp [setManualUploadCap, other, consistent]

theorem manualDownloadCap_eq (consistent : prefs.Consistent) : manualDownloadCap prefs = prefs.manualDl := by
  unfold Preferences.Consistent at consistent
  unfold manualDownloadCap
  split
  · rfl
  next off =>
    rw [consistent, not_or, not_ne_iff] at off
    exact off.1.symm

theorem manualUploadCap_eq (consistent : prefs.Consistent) : manualUploadCap prefs = prefs.manualUl := by
  unfold Preferences.Consistent at consistent
  unfold manualUploadCap
  split
  · rfl
  next off =>
    rw [consistent, not_or, not_ne_iff, not_ne_iff] at off
    exact off.2.symm

theorem savedCaps_eq (prefs : Preferences) :
    savedCaps (getAllSettings prefs) =
      (effectiveCap (manualDownloadCap prefs) (measuredDownloadMbps prefs) (capPercentage prefs),
        effectiveCap (manualUploadCap prefs) (measuredUploadMbps prefs) (capPercentage prefs)) := by
  have mode : (prefs.manualMode.getD false = true) = (prefs.manualMode = some true) := by
    cases prefs.manualMode <;> simp
  simp only [savedCaps, getAllSettings, manualDownloadCap, manualUploadCap, measuredDownloadMbps,
    measuredUploadMbps, capPercentage, mode]

end SettingsRepository

end ThrottleVpn.App
