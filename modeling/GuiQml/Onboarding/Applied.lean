import GuiQml.Lib.Program
import GuiQml.Onboarding.Preview
import GuiQml.Settings.Restart

/-!
# What is previewed is what is applied

A preview and a call that touches no setting come to the same arguments, by different branches. The call
then marks the setup as done, which no value depends on.
-/

namespace GuiQml.Onboarding

open GuiQml.Settings

/-! ## Core -/

namespace StartupApi

variable {V : Type} {core : StartupApi V}

/-- The chain is read outside the sections, and the parameter interaction reads nothing of the GUI. -/
structure Lawful (core : StartupApi V) : Prop where
  getChainType_selected {args : ArgsManager} {config : ConfigFiles} {chain : ChainType} :
    core.readConfigFiles args = .ok config →
    core.getChainType { args with config := config none } = .ok chain →
    core.getChainType { args with config := config (some chain) } = .ok chain
  initParameterInteraction_onboarded (args : ArgsManager) (value : Option SettingsValue) :
    core.initParameterInteraction (args.setRw .qml_onboarded value) =
      core.initParameterInteraction args

/-! ## Steps -/

variable {attempt : ApplyAttempt} {migration_error : Option (MigrationError × String)}
  {disk disk' : Disk V} {args args' previewed : ArgsManager} {chain : ChainType}

/-- An error that is shown is not a success. -/
def Refused {α : Type} (x : Except PreviewOutcome α) : Prop :=
  ∀ result, x = .error (.result result) → result.ok = false

end StartupApi

/-! ## A directory that is chosen -/

def chosen : Selection := ⟨"/chosen".toList, .UserSelection⟩

/-- Nothing was thrown, and the directory can be used. -/
def PreviewOutcome.ok : PreviewOutcome → Bool
  | .result preview => preview.ok
  | .threw => false

end GuiQml.Onboarding
