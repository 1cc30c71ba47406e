import GuiQml.Lib.Reach
import GuiQml.Settings.Changes
import GuiQml.Settings.Onboarding

/-!
# The model of the setup

`OnboardingOptionsModel` before it prepares the node or shuts down: the chain of the startup status and the
previews, and that of the storage checks. Both run on one worker, so what is in flight is one queue. What
the worker finds out is open. Of the statuses of the settings it is kept what cannot be edited and whether
pruning is at its default.
-/

namespace GuiQml.Onboarding

open GuiQml.Settings

/-! ## Storage -/

namespace QmlOnboardingStorage

structure State where
  result_valid : Bool
  available_bytes : Nat
  error_text : String
  assumed_blockchain_size_gb : Int
  assumed_chainstate_size_gb : Int
  existing_profile : Bool

def gBToBytes (gb : Int) : Nat := if gb ≤ 0 then 0 else gb.toNat * GB_BYTES.toNat

def shouldRecommendPrune (state : State) : Bool :=
  if !state.result_valid || state.error_text ≠ "" then false
  else if state.existing_profile then false
  else
    let full_required_gb := state.assumed_blockchain_size_gb + state.assumed_chainstate_size_gb
    state.available_bytes < gBToBytes (full_required_gb + 10)

end QmlOnboardingStorage

structure StorageSpaceResult where
  message : String
  available_bytes : Nat
  ok : Bool

/-! ## What the worker finds -/

structure CoreSettingStatuses where
  locked : List Name := []
  /-- Whether the source of the prune setting is its default. -/
  prune_default : Bool := false

structure PreviewResult where
  ok : Bool
  error : String
  values : Values
  core_setting_statuses : CoreSettingStatuses
  assumed_blockchain_size : Int
  assumed_chainstate_size : Int
  existing_profile : Bool

structure OnboardingStartupStatus where
  ok : Bool
  error : String
  active_data_dir : Str
  data_dir_source : DataDirSource

/-- The data directory that is selected, and by what. -/
structure Selection where
  path : Str
  source : DataDirSource
  deriving DecidableEq

inductive PreviewOutcome
  | result (preview : PreviewResult)
  | threw

inductive Task
  | status (request_id : Nat)
  | preview (request_id : Nat) (selection : Selection)
  | check (request_id : Nat) (path : Str)

namespace Task

def isCheck : Task → Bool
  | .check .. => true
  | _ => false

/-- A status read or a preview. -/
def isPreview (task : Task) : Bool := !task.isCheck

end Task

/-- `QmlDataDir`, as far as it is used. -/
structure DataDirs where
  normalizeLocalPath : Str → Str
  defaultDataDirString : Str
  isDefaultDataDir : Str → Bool

/-! ## The model -/

structure OnboardingOptionsModel where
  m_preview_pending : Bool := true
  m_preview_in_flight : Bool := false
  m_preview_request_id : Nat := 0
  m_data_dir : Str
  m_data_dir_source : DataDirSource := .Default
  m_custom_datadir_string : Str := []
  m_core_settings : Session :=
    { m_values := { proxy_address := defaultProxyAddress, tor_address := defaultProxyAddress } }
  /-- The status of the prune setting says that its source is the default. -/
  prune_default : Bool := false
  m_preview_error : String := ""
  existing_profile : Bool := false
  m_assumed_blockchain_size : Int := 0
  m_assumed_chainstate_size : Int := 0
  m_storage_request_id : Nat := 0
  m_storage_available_bytes : Nat := 0
  m_storage_check_in_flight : Bool := false
  m_storage_check_pending : Bool := false
  m_storage_result_valid : Bool := false
  m_prune_auto_recommended : Bool := false
  m_storage_check_path : Str := []
  m_storage_path_message : String := ""
  m_storage_error_text : String := ""

structure System where
  model : OnboardingOptionsModel
  /-- Oldest first. -/
  tasks : List Task := []
  /-- The preview that is shown, with what it was a preview of. -/
  shown : Option (Selection × PreviewOutcome) := none
  /-- The startup status failed, and nothing was selected since. -/
  startup_failed : Bool := false

namespace OnboardingOptionsModel

variable (m : OnboardingOptionsModel)

def selection : Selection := ⟨m.m_data_dir, m.m_data_dir_source⟩

def storageState : QmlOnboardingStorage.State where
  result_valid := m.m_storage_result_valid
  available_bytes := m.m_storage_available_bytes
  error_text := m.m_storage_error_text
  assumed_blockchain_size_gb := m.m_assumed_blockchain_size
  assumed_chainstate_size_gb := m.m_assumed_chainstate_size
  existing_profile := m.existing_profile

def applyAutomaticPruneRecommendation : OnboardingOptionsModel :=
  if !m.m_storage_result_valid || m.m_storage_error_text ≠ "" then m
  else if m.existing_profile then m
  else if !m.m_core_settings.canEdit .prune then m
  else if !m.prune_default then m
  else if m.m_core_settings.isTouched .prune && !m.m_prune_auto_recommended then m
  else
    let should_prune := QmlOnboardingStorage.shouldRecommendPrune m.storageState
    { m with
      m_core_settings := m.m_core_settings.changePruneRecommendation should_prune
        DEFAULT_PRUNE_TARGET_GB should_prune
      m_prune_auto_recommended := should_prune }

/-- The change handler of the core settings only looks at accepted changes of the user's. -/
def changeCore (api : CoreApi) (change : CoreChange) : OnboardingOptionsModel :=
  let before := m.m_core_settings.m_values
  let (session, accepted) := change.apply api m.m_core_settings
  let after := session.m_values
  { m with
    m_core_settings := session
    m_prune_auto_recommended :=
      if accepted && (before.prune ≠ after.prune || before.prune_size_gb ≠ after.prune_size_gb) then false
      else m.m_prune_auto_recommended }

end OnboardingOptionsModel

namespace System

variable (s : System)

/-! ## Storage checks -/

def startStorageCheck (request_id : Nat) (path : Str) : System :=
  { s with
    model := { s.model with m_storage_check_in_flight := true }
    tasks := s.tasks ++ [.check request_id path] }

def requestStorageCheck : System :=
  let s := { s with model := { s.model with
    m_storage_request_id := s.model.m_storage_request_id + 1
    m_storage_check_path := s.model.m_data_dir
    m_storage_check_pending := true } }
  if !s.model.m_storage_check_in_flight then
    s.startStorageCheck s.model.m_storage_request_id s.model.m_storage_check_path
  else s

def applyStorageCheckResult (request_id : Nat) (result : StorageSpaceResult) : System :=
  let s := { s with model := { s.model with m_storage_check_in_flight := false } }
  if request_id ≠ s.model.m_storage_request_id then
    if !s.model.m_preview_pending then
      s.startStorageCheck s.model.m_storage_request_id s.model.m_storage_check_path
    else s
  else
    { s with model := { s.model with
        m_storage_check_pending := false
        m_storage_result_valid := result.ok
        m_storage_available_bytes := if result.ok then result.available_bytes else 0
        m_storage_path_message := result.message
        m_storage_error_text := if result.ok then "" else result.message
          }.applyAutomaticPruneRecommendation }

/-! ## Previews -/

def startPreview : System :=
  { s with
    model := { s.model with m_preview_in_flight := true }
    tasks := s.tasks ++ [.preview s.model.m_preview_request_id s.model.selection] }

def refreshPreview : System :=
  let s := { s with model := { s.model with
    m_preview_request_id := s.model.m_preview_request_id + 1
    m_storage_request_id := s.model.m_storage_request_id + 1
    m_preview_pending := true } }
  if !s.model.m_preview_in_flight then s.startPreview else s

def applyPreview (preview : PreviewResult) : System :=
  if !preview.ok then { s with model := { s.model with m_preview_error := preview.error } }
  else
    let m := { s.model with
      m_assumed_blockchain_size := preview.assumed_blockchain_size
      m_assumed_chainstate_size := preview.assumed_chainstate_size
      existing_profile := preview.existing_profile }
    let m :=
      if m.existing_profile && m.m_prune_auto_recommended then
        { m with
          m_core_settings := m.m_core_settings.changePruneRecommendation preview.values.prune
            preview.values.prune_size_gb false
          m_prune_auto_recommended := false }
      else m
    let m := { m with
      m_core_settings := m.m_core_settings.applyPreviewValuesPreservingTouched preview.values
        preview.core_setting_statuses.locked
      prune_default := preview.core_setting_statuses.prune_default
      m_preview_error := "" }
    { s with model := m }.requestStorageCheck

/-- The preview comes back. One that is not for the last request only makes room for it. -/
def previewDone (request_id : Nat) (selection : Selection) (outcome : PreviewOutcome) : System :=
  let s := { s with model := { s.model with m_preview_in_flight := false } }
  if request_id ≠ s.model.m_preview_request_id then s.startPreview
  else
    let s := match outcome with
      | .result preview => s.applyPreview preview
      | .threw => { s with model := { s.model with
          m_preview_error := "The selected directory could not be checked." } }
    { s with
      model := { s.model with m_preview_pending := false }
      shown := some (selection, outcome) }

/-! ## The startup status -/

def statusReturned (dirs : DataDirs) (request_id : Nat) (status : OnboardingStartupStatus) : System :=
  let s := { s with model := { s.model with m_preview_in_flight := false } }
  if request_id ≠ s.model.m_preview_request_id then s.startPreview
  else if !status.ok then
    { s with
      model := { s.model with m_preview_error := status.error, m_preview_pending := false }
      startup_failed := true }
  else
    { s with model := { s.model with
        m_data_dir := status.active_data_dir
        m_data_dir_source := status.data_dir_source
        m_custom_datadir_string :=
          if dirs.isDefaultDataDir status.active_data_dir then [] else status.active_data_dir
          } }.startPreview

def statusThrew : System :=
  { s with
    model := { s.model with
      m_preview_in_flight := false
      m_preview_error := "The startup settings could not be read."
      m_preview_pending := false }
    startup_failed := true }

/-! ## Selections -/

def setDataDir (dirs : DataDirs) (path : Str) : System :=
  let normalized := dirs.normalizeLocalPath path
  let effective := if normalized.isEmpty then dirs.defaultDataDirString else normalized
  { s with
    model := { s.model with m_data_dir := effective }
    startup_failed := false }.refreshPreview

def selectCustomDataDir (dirs : DataDirs) (path : Str) : System :=
  let local_path := dirs.normalizeLocalPath path
  if local_path.isEmpty then s
  else
    { s with model := { s.model with
        m_custom_datadir_string := local_path
        m_data_dir_source := .UserSelection } }.setDataDir dirs local_path

def useDefaultDataDir (dirs : DataDirs) : System :=
  { s with model := { s.model with
      m_custom_datadir_string := []
      m_data_dir_source := .UserSelection } }.setDataDir dirs dirs.defaultDataDirString

end System

section Steps

variable (api : CoreApi) (dirs : DataDirs)

/-- The constructor asks for the startup status. -/
def start : System where
  model :=
    { m_data_dir := dirs.defaultDataDirString
      m_preview_in_flight := true
      m_preview_request_id := 1 }
  tasks := [.status 1]

inductive Event
  | selectCustomDataDir (path : Str)
  | useDefaultDataDir
  | changeCore (change : CoreChange)
  /-- The oldest task comes back, in the way of its kind. -/
  | statusReturned (status : OnboardingStartupStatus)
  | statusThrew
  | previewReturned (preview : PreviewResult)
  | previewThrew
  | checkReturned (result : StorageSpaceResult)
  | checkThrew

def previewDone (s : System) (outcome : PreviewOutcome) : System :=
  match s.tasks with
  | .preview request_id selection :: tasks => { s with tasks }.previewDone request_id selection outcome
  | _ => s

def checkDone (s : System) (result : StorageSpaceResult) : System :=
  match s.tasks with
  | .check request_id _ :: tasks => { s with tasks }.applyStorageCheckResult request_id result
  | _ => s

def step (s : System) : Event → System
  | .selectCustomDataDir path => s.selectCustomDataDir dirs path
  | .useDefaultDataDir => s.useDefaultDataDir dirs
  | .changeCore change => { s with model := s.model.changeCore api change }
  | .statusReturned status =>
    match s.tasks with
    | .status request_id :: tasks => { s with tasks }.statusReturned dirs request_id status
    | _ => s
  | .statusThrew =>
    match s.tasks with
    | .status _ :: tasks => { s with tasks }.statusThrew
    | _ => s
  | .previewReturned preview => previewDone s (.result preview)
  | .previewThrew => previewDone s .threw
  | .checkReturned result => checkDone s result
  | .checkThrew => checkDone s ⟨"Available storage could not be checked.", 0, false⟩

end Steps

end GuiQml.Onboarding
