import Mathlib.Logic.Function.Basic
import ThrottleVpn.App.SettingsStore

/-! `SettingsActivity` and `BootReceiver`.

The screen loads its four switches one after another while the user may already be
using them. A switch that changes, by the user or by the load itself, starts an edit of
the store; the store makes the edits in the order in which they were begun.
-/

set_option autoImplicit false

namespace ThrottleVpn.App

open Foundation

inductive Switch where
  | boot
  | recon
  | bg
  | notif
  deriving DecidableEq, Repr

namespace Switch

def flow : Switch → Preferences → Bool
  | boot => SettingsRepository.autoStartOnBoot
  | recon => SettingsRepository.autoReconnect
  | bg => SettingsRepository.backgroundMode
  | notif => SettingsRepository.showNotification

def listener : Switch → Bool → Edit
  | boot => .autoStartOnBoot
  | recon => .autoReconnect
  | bg => .backgroundMode
  | notif => .showNotification

end Switch

def Edit.switch? : Edit → Option Switch
  | .autoStartOnBoot _ => some .boot
  | .autoReconnect _ => some .recon
  | .backgroundMode _ => some .bg
  | .showNotification _ => some .notif
  | .capPercentage _ | .manualDownloadCap _ | .manualUploadCap _ | .measuredSpeeds _ _ => none

abbrev OtherEdit := { edit : Edit // edit.switch? = none }

/-- `loading` are the switches that the load has not reached, and `read` is what it has
read for the first of them. `pending` are the edits that were begun. -/
structure SettingsActivity where
  checked : Switch → Bool
  listening : Bool
  loading : List Switch
  read : Option Bool
  pending : List Edit
  prefs : Preferences

/-- The load may get on before the listeners are set. The user comes later. -/
inductive ScreenEvent where
  | read
  | assign
  | listen
  | toggle (switch : Switch)
  | edit
  | elsewhere (edit : OtherEdit)
  deriving DecidableEq

namespace SettingsActivity

def onCreate (prefs : Preferences) : SettingsActivity :=
  ⟨fun _ => false, false, [.boot, .recon, .bg, .notif], none, [], prefs⟩

/-- `isChecked = value`. The listener hears of changes only. -/
def setChecked (screen : SettingsActivity) (switch : Switch) (value : Bool) : SettingsActivity :=
  if screen.checked switch = value then screen
  else
    { screen with
      checked := Function.update screen.checked switch value
      pending := if screen.listening then screen.pending ++ [switch.listener value] else screen.pending }

def step (screen : SettingsActivity) : ScreenEvent → SettingsActivity
  | .read =>
    match screen.loading, screen.read with
    | switch :: _, none => { screen with read := some (switch.flow screen.prefs) }
    | _, _ => screen
  | .assign =>
    match screen.loading, screen.read with
    | switch :: rest, some value => { screen.setChecked switch value with loading := rest, read := none }
    | _, _ => screen
  | .listen => { screen with listening := true }
  | .toggle switch => if screen.listening then screen.setChecked switch (!screen.checked switch) else screen
  | .edit =>
    match screen.pending with
    | edit :: rest => { screen with prefs := screen.prefs.edit edit, pending := rest }
    | [] => screen
  | .elsewhere edit => { screen with prefs := screen.prefs.edit edit.val }

/-- The store when all edits that were begun are made. -/
def stored (screen : SettingsActivity) : Preferences := screen.pending.foldl Preferences.edit screen.prefs

end SettingsActivity

namespace BootReceiver

def bootCompleted : String := "android.intent.action.BOOT_COMPLETED"

def onReceive (action : Option String) (prefs : Preferences) : Bool :=
  if action ≠ some bootCompleted then false
  else
    let autoStart := SettingsRepository.autoStartOnBoot prefs
    if autoStart then true else false

end BootReceiver

/-! ### One switch -/

def Edit.leaves (switch : Switch) (value : Bool) : Edit → Bool
  | .autoStartOnBoot new => if switch = .boot then new else value
  | .autoReconnect new => if switch = .recon then new else value
  | .backgroundMode new => if switch = .bg then new else value
  | .showNotification new => if switch = .notif then new else value
  | .capPercentage _ | .manualDownloadCap _ | .manualUploadCap _ | .measuredSpeeds _ _ => value

theorem flow_edit (switch : Switch) (prefs : Preferences) (edit : Edit) :
    switch.flow (prefs.edit edit) = edit.leaves switch (switch.flow prefs) := by
  cases edit with
  | manualDownloadCap mbps | manualUploadCap mbps => cases mbps <;> cases switch <;> rfl
  | capPercentage | autoStartOnBoot | autoReconnect | backgroundMode | showNotification | measuredSpeeds =>
    cases switch <;> rfl

theorem leaves_listener (switch : Switch) (before value : Bool) :
    (switch.listener value).leaves switch before = value := by cases switch <;> rfl

theorem listener_switch (switch : Switch) (value : Bool) : (switch.listener value).switch? = some switch := by
  cases switch <;> rfl

theorem leaves_other {edit : Edit} {switch : Switch} (other : edit.switch? ≠ some switch) (value : Bool) :
    edit.leaves switch value = value := by
  cases edit with
  | autoStartOnBoot new | autoReconnect new | backgroundMode new | showNotification new =>
    exact if_neg fun same => other (congrArg some same.symm)
  | capPercentage | manualDownloadCap | manualUploadCap | measuredSpeeds => rfl

theorem foldl_leaves {edits : List Edit} {switch : Switch} (others : ∀ edit ∈ edits, edit.switch? ≠ some switch)
    (value : Bool) : edits.foldl (Edit.leaves switch) value = value := by
  induction edits with
  | nil => rfl
  | cons edit rest ih =>
    rw [List.forall_mem_cons] at others
    rw [List.foldl_cons, leaves_other others.1]
    exact ih others.2

theorem flow_stored (screen : SettingsActivity) (switch : Switch) :
    switch.flow screen.stored = screen.pending.foldl (Edit.leaves switch) (switch.flow screen.prefs) :=
  view_foldl (fun _ => True) (fun _ _ _ => trivial) (fun prefs edit _ => flow_edit switch prefs edit) trivial _

/-! ### Steps and runs -/

namespace SettingsActivity

/-- No edit of the switch has been begun, and what was read for it is still there. -/
structure Waits (screen : SettingsActivity) (switch : Switch) : Prop where
  ahead : switch ∈ screen.loading
  untouched : ∀ edit ∈ screen.pending, edit.switch? ≠ some switch
  current : screen.loading.head? = some switch → ∀ value ∈ screen.read, value = switch.flow screen.prefs

def Settles (screen : SettingsActivity) (switch : Switch) : Prop :=
  switch.flow screen.stored = screen.checked switch

structure Kept (screen : SettingsActivity) : Prop where
  each : ∀ switch, screen.Settles switch ∨ screen.Waits switch
  quiet : screen.listening = false → screen.pending = [] ∧ ∀ switch ∈ screen.loading, screen.Waits switch

variable {screen : SettingsActivity}

theorem kept_onCreate (prefs : Preferences) : (onCreate prefs).Kept := by
  have waits : ∀ switch, (onCreate prefs).Waits switch := by
    intro switch
    refine ⟨?_, by simp [onCreate], by simp [onCreate]⟩
    cases switch <;> simp [onCreate]
  exact ⟨fun switch => .inr (waits switch), fun _ => ⟨rfl, fun switch _ => waits switch⟩⟩

theorem Waits.flow_stored {switch : Switch} (waits : screen.Waits switch) :
    switch.flow screen.stored = switch.flow screen.prefs := by
  rw [App.flow_stored, foldl_leaves waits.untouched]

theorem settles_changed (screen : SettingsActivity) (switch : Switch) (value : Bool) (loading : List Switch)
    (read : Option Bool) :
    let changed : SettingsActivity := { screen with
      checked := Function.update screen.checked switch value
      pending := screen.pending ++ [switch.listener value]
      loading := loading, read := read }
    changed.Settles switch ∧ ∀ other, other ≠ switch → screen.Settles other → changed.Settles other := by
  intro changed
  unfold Settles
  simp only [App.flow_stored, changed, List.foldl_append, List.foldl_cons, List.foldl_nil, leaves_listener,
    Function.update_self, true_and]
  intro other different settles
  have apart : (switch.listener value).switch? ≠ some other := by
    rw [listener_switch]
    exact fun same => different (Option.some.inj same).symm
  rw [leaves_other apart, Function.update_of_ne different, settles]

theorem Waits.untouched_append {switch other : Switch} (waits : screen.Waits other) (different : other ≠ switch)
    (value : Bool) : ∀ edit ∈ screen.pending ++ [switch.listener value], edit.switch? ≠ some other := by
  rw [List.forall_mem_append]
  refine ⟨waits.untouched, ?_⟩
  rw [List.forall_mem_singleton, listener_switch]
  exact fun same => different (Option.some.inj same).symm

theorem Kept.read (kept : screen.Kept) : (screen.step .read).Kept := by
  simp only [SettingsActivity.step]
  split
  next switch rest loading free =>
    have waits : ∀ other, screen.Waits other →
        Waits { screen with read := some (switch.flow screen.prefs) } other := by
      intro other waits
      refine ⟨waits.ahead, waits.untouched, fun head value read => ?_⟩
      simp only [loading, List.head?_cons, Option.some.injEq] at head
      simp only [Option.mem_def, Option.some.injEq] at read
      rw [← read, head]
    exact ⟨fun other => (kept.each other).imp_right (waits other),
      fun silent => ⟨(kept.quiet silent).1, fun other ahead => waits other ((kept.quiet silent).2 other ahead)⟩⟩
  next => exact kept

theorem Kept.assign (kept : screen.Kept) : (screen.step .assign).Kept := by
  simp only [SettingsActivity.step]
  split
  next switch rest value loading read =>
    -- the other switches are still to be loaded
    have loaded : ∀ other, screen.Waits other → other ≠ switch → other ∈ rest := by
      intro other waits different
      have ahead := waits.ahead
      rw [loading] at ahead
      exact (List.mem_cons.mp ahead).resolve_left different
    have fresh : screen.Waits switch → switch.flow screen.stored = value := by
      intro waits
      rw [waits.flow_stored]
      exact (waits.current (by rw [loading]; rfl) value read).symm
    unfold setChecked
    split
    next same =>
      -- the listener hears nothing
      constructor
      · intro other
        by_cases here : other = switch
        · subst here
          refine .inl ((kept.each other).elim id fun waits => ?_)
          exact (fresh waits).trans same.symm
        · refine (kept.each other).imp id fun waits => ?_
          exact ⟨loaded other waits here, waits.untouched, by simp⟩
      · intro silent
        refine ⟨(kept.quiet silent).1, fun other ahead => ⟨ahead, ?_, by simp⟩⟩
        exact ((kept.quiet silent).2 other (by rw [loading]; exact List.mem_cons_of_mem _ ahead)).untouched
    next changes =>
      -- the listener writes what was loaded back to the store, or is not set yet
      cases listens : screen.listening with
      | true =>
        obtain ⟨settles, others⟩ := settles_changed screen switch value rest none
        refine ⟨fun other => ?_, fun silent => by simp at silent⟩
        by_cases here : other = switch
        · subst here
          exact .inl settles
        · refine (kept.each other).imp (others other here) fun waits => ?_
          exact ⟨loaded other waits here, waits.untouched_append here value, by simp⟩
      | false =>
        obtain ⟨idle, all⟩ := kept.quiet listens
        constructor
        · intro other
          by_cases here : other = switch
          · subst here
            refine .inl ?_
            have waits := all other (by rw [loading]; exact List.mem_cons_self)
            show other.flow screen.stored = Function.update screen.checked other value other
            rw [Function.update_self, fresh waits]
          · refine (kept.each other).imp (fun settles => ?_) fun waits => ?_
            · show other.flow screen.stored = Function.update screen.checked switch value other
              rw [Function.update_of_ne here, settles]
            · exact ⟨loaded other waits here, waits.untouched, by simp⟩
        · intro _
          refine ⟨idle, fun other ahead => ⟨ahead, ?_, by simp⟩⟩
          exact (all other (by rw [loading]; exact List.mem_cons_of_mem _ ahead)).untouched
  next => exact kept

theorem Kept.toggle (kept : screen.Kept) (switch : Switch) : (screen.step (.toggle switch)).Kept := by
  simp only [SettingsActivity.step]
  split
  next listens =>
    have changes : screen.checked switch ≠ !screen.checked switch := by simp
    unfold setChecked
    rw [if_neg changes, if_pos listens]
    -- the user: from now on the store will follow what is shown
    obtain ⟨settles, others⟩ :=
      settles_changed screen switch (!screen.checked switch) screen.loading screen.read
    refine ⟨fun other => ?_, fun silent => by simp [listens] at silent⟩
    by_cases here : other = switch
    · subst here
      exact .inl settles
    · refine (kept.each other).imp (others other here) fun waits => ?_
      exact ⟨waits.ahead, waits.untouched_append here _, waits.current⟩
  next => exact kept

theorem Kept.edit (kept : screen.Kept) : (screen.step .edit).Kept := by
  simp only [SettingsActivity.step]
  split
  next edit rest pending =>
    constructor
    · intro other
      refine (kept.each other).imp (fun settles => ?_) fun waits => ?_
      · unfold Settles stored at settles ⊢
        rwa [pending] at settles
      -- the edit that is made is of another switch
      · have untouched := waits.untouched
        rw [pending, List.forall_mem_cons] at untouched
        refine ⟨waits.ahead, untouched.2, fun head value read => ?_⟩
        rw [waits.current head value read, flow_edit, leaves_other untouched.1]
    · intro silent
      have idle := (kept.quiet silent).1
      rw [pending] at idle
      cases idle
  next => exact kept

theorem Kept.elsewhere (kept : screen.Kept) (edit : OtherEdit) : (screen.step (.elsewhere edit)).Kept := by
  have same : ∀ switch : Switch, switch.flow (screen.prefs.edit edit.val) = switch.flow screen.prefs := by
    intro switch
    rw [flow_edit, leaves_other]
    rw [edit.2]
    simp
  have waits : ∀ switch, screen.Waits switch →
      Waits { screen with prefs := screen.prefs.edit edit.val } switch := by
    intro switch waits
    exact ⟨waits.ahead, waits.untouched, fun head value read =>
      (waits.current head value read).trans (same switch).symm⟩
  refine ⟨fun switch => (kept.each switch).imp (fun settles => ?_) (waits switch), fun silent => ?_⟩
  · unfold Settles at settles ⊢
    rw [App.flow_stored] at settles ⊢
    simp only [SettingsActivity.step, same]
    exact settles
  · exact ⟨(kept.quiet silent).1, fun switch ahead => waits switch ((kept.quiet silent).2 switch ahead)⟩

theorem Kept.step (kept : screen.Kept) (event : ScreenEvent) : (screen.step event).Kept := by
  cases event with
  | read => exact kept.read
  | assign => exact kept.assign
  | listen =>
    refine ⟨fun switch => (kept.each switch).imp id fun waits => ?_, fun silent => by cases silent⟩
    exact ⟨waits.ahead, waits.untouched, waits.current⟩
  | toggle switch => exact kept.toggle switch
  | edit => exact kept.edit
  | elsewhere edit => exact kept.elsewhere edit

/-- The load takes back what the user did before it. -/
example : let events : List ScreenEvent := [.listen, .read, .toggle .boot, .edit, .assign, .edit]
    let screen := events.foldl SettingsActivity.step (onCreate .empty)
    screen.checked .boot = false ∧ SettingsRepository.autoStartOnBoot screen.prefs = false := by decide +kernel

end SettingsActivity

end ThrottleVpn.App
