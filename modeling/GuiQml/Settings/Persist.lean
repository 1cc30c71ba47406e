import GuiQml.Settings.Restart
import Mathlib.Data.List.Dedup

/-!
# Saving a setting or taking it back

`PersistSettings`: a change of the listed settings is kept where it is accepted and saved, and taken back
where it is not. Others write at any time, each under its own lock, and what they wrote is told from the
change by a second snapshot. That snapshot is taken only after the change is done.
-/

namespace GuiQml.Settings

open LastWrite

abbrev RwWrite := Write Name SettingsValue

/-- How the change ends. What throws is a `std::exception` with its text, or something else. -/
inductive Mutation
  | returned (accepted : Bool)
  | threw (what : Option String)
  deriving DecidableEq

inductive FileWrite
  | written
  | failed (errors : List String)
  | threw (what : Option String)
  deriving DecidableEq

/-- One call, with what is written meanwhile. -/
structure PersistRun where
  /-- The writes of the change to the listed settings, among those of others to the rest. -/
  during : List RwWrite
  mutation : Mutation
  /-- The writes of others up to the second snapshot. -/
  afterMutation : List RwWrite
  /-- The writes of others up to the end of the file write, and after it. -/
  duringFile : List RwWrite
  file : FileWrite
  late : List RwWrite

namespace PersistSettings

variable (api : CoreApi) (keys : List Name)

/-- The failure texts, one a line. -/
def joinErrors (errors : List String) : String :=
  errors.foldl (fun failure message => (if failure ≠ "" then failure ++ "\n" else failure) ++ message) ""

def unableToSave : String := "Unable to save settings."

def cannotBeChanged : String := "This setting cannot be changed."

def stillOurs (written current : Option SettingsValue) : Bool :=
  match written with
  | some written => current.any fun current => api.write current = api.write written
  | none => current.isNone

/-- One turn of the loop that takes the change back. -/
def rollBackKey (before attempted : RwSettings) (rw : RwSettings) (key : Name) : RwSettings :=
  if !stillOurs api (attempted key) (rw key) then rw else Function.update rw key (before key)

def rollBack (before attempted rw : RwSettings) : RwSettings :=
  keys.dedup.foldl (rollBackKey api before attempted) rw

def fail (before attempted rw : RwSettings) (failure : String) : RwSettings × Bool × String :=
  (rollBack api keys before attempted rw, false, if failure = "" then unableToSave else failure)

end PersistSettings

open PersistSettings

/-- The settings after the call, whether it says that they are saved, and the error. -/
def persistSettings (api : CoreApi) (keys : List Name) (rw : RwSettings) (run : PersistRun) :
    RwSettings × Bool × String :=
  let before := rw
  let rw := apply rw run.during
  let rw := apply rw run.afterMutation
  let attempted := rw
  match run.mutation with
  | .threw what => fail api keys before attempted (apply rw run.late) (what.getD unableToSave)
  | .returned false => fail api keys before attempted (apply rw run.late) cannotBeChanged
  | .returned true =>
    let rw := apply rw run.duringFile
    match run.file with
    | .written => (apply rw run.late, true, "")
    | .failed errors => fail api keys before attempted (apply rw run.late) (joinErrors errors)
    | .threw what => fail api keys before attempted (apply rw run.late) (what.getD unableToSave)

/-! ## What is asked of a call -/

namespace PersistRun

variable (run : PersistRun)

def Saved : Prop := run.mutation = .returned true ∧ run.file = .written

instance : Decidable run.Saved := inferInstanceAs (Decidable (_ ∧ _))

/-- The writes up to the end of the call, of the change and of others. -/
def writes : List RwWrite :=
  run.during ++ run.afterMutation ++ (if run.mutation = .returned true then run.duringFile else []) ++ run.late

end PersistRun

/-- The change is kept, or each listed setting is what it was before, unless another has replaced the value
that the change left. What is not listed is what others wrote last. -/
structure Persists (api : CoreApi) (keys : List Name) (rw : RwSettings) (run : PersistRun)
    (result : RwSettings × Bool × String) : Prop where
  saved_iff : result.2.1 = true ↔ run.Saved
  kept : run.Saved → result.1 = apply rw run.writes
  taken_back : ¬run.Saved → ∀ key ∈ keys, result.1 key =
    if (apply rw run.writes key).map api.write = (apply rw run.during key).map api.write then rw key
    else apply rw run.writes key
  others_kept : ∀ key ∉ keys, result.1 key = apply rw run.writes key

/-- Whoever writes a listed setting between the change and the second snapshot either leaves the value of the
change there, or the setting ends with neither that value nor the one in the snapshot, or as it was before. -/
def SnapshotSound (api : CoreApi) (keys : List Name) (rw : RwSettings) (run : PersistRun) : Prop :=
  ∀ key ∈ keys,
    let changed := (apply rw run.during key).map api.write
    let attempted := (apply rw (run.during ++ run.afterMutation) key).map api.write
    let current := (apply rw run.writes key).map api.write
    attempted = changed ∨ (current ≠ attempted ∧ current ≠ changed) ∨ apply rw run.writes key = rw key

/-! ## The roll-back -/

section RollBack

variable {api : CoreApi} {keys : List Name} {rw before attempted : RwSettings} {key : Name}

theorem stillOurs_iff {written current : Option SettingsValue} :
    stillOurs api written current = true ↔ current.map api.write = written.map api.write := by
  cases written <;> cases current <;> simp [stillOurs]

theorem rollBackKey_apply (other : Name) : rollBackKey api before attempted rw other key =
    if key = other ∧ (rw key).map api.write = (attempted key).map api.write then before key else rw key := by
  unfold rollBackKey
  cases hstill : stillOurs api (attempted other) (rw other) with
  | true =>
    have hours := stillOurs_iff.mp hstill
    by_cases hkey : key = other
    · subst hkey
      simp [hours]
    · simp [hkey]
  | false =>
    have hours : (rw other).map api.write ≠ (attempted other).map api.write := fun h => by
      rw [stillOurs_iff.mpr h] at hstill
      cases hstill
    by_cases hkey : key = other
    · subst hkey
      simp [hours]
    · simp [hkey]

theorem foldl_rollBackKey {names : List Name} (hnodup : names.Nodup) :
    names.foldl (rollBackKey api before attempted) rw key =
      if key ∈ names ∧ (rw key).map api.write = (attempted key).map api.write then before key else rw key := by
  induction names generalizing rw with
  | nil => simp
  | cons name names ih =>
    obtain ⟨hnot, hnodup⟩ := List.nodup_cons.mp hnodup
    rw [List.foldl_cons, ih hnodup, rollBackKey_apply]
    by_cases hkey : key = name
    · subst hkey
      simp [hnot]
    · simp [hkey]

theorem rollBack_apply : rollBack api keys before attempted rw key =
    if key ∈ keys ∧ (rw key).map api.write = (attempted key).map api.write then before key else rw key := by
  rw [rollBack, foldl_rollBackKey (List.nodup_dedup keys)]
  simp only [List.mem_dedup]

end RollBack

/-! ## The call -/

section Call

variable {api : CoreApi} {keys : List Name} {rw : RwSettings} {run : PersistRun}

theorem apply_append (rw : RwSettings) (a b : List RwWrite) : apply rw (a ++ b) = apply (apply rw a) b :=
  List.foldl_append

/-- A call that is not saved takes back what it still finds as in its second snapshot. -/
theorem persistSettings_of_not_saved (h : ¬run.Saved) :
    (persistSettings api keys rw run).2.1 = false ∧ (persistSettings api keys rw run).1 =
      rollBack api keys rw (apply rw (run.during ++ run.afterMutation)) (apply rw run.writes) := by
  unfold persistSettings PersistRun.writes
  simp only [apply_append]
  split
  · rename_i hmutation
    simp [hmutation, fail]
  · rename_i hmutation
    simp [hmutation, fail]
  · rename_i hmutation
    rw [if_pos hmutation]
    split
    · rename_i hfile
      exact absurd ⟨hmutation, hfile⟩ h
    · exact ⟨rfl, rfl⟩
    · exact ⟨rfl, rfl⟩

theorem persistSettings_of_saved (h : run.Saved) :
    persistSettings api keys rw run = (apply rw run.writes, true, "") := by
  obtain ⟨hmutation, hfile⟩ := h
  unfold persistSettings PersistRun.writes
  simp only [apply_append, hmutation, hfile, if_true]

theorem taken_back_iff {before changed attempted current : Option SettingsValue} :
    ((if current.map api.write = attempted.map api.write then before else current) =
        if current.map api.write = changed.map api.write then before else current) ↔
      attempted.map api.write = changed.map api.write ∨
        (current.map api.write ≠ attempted.map api.write ∧ current.map api.write ≠ changed.map api.write) ∨
        current = before := by
  by_cases hattempted : current.map api.write = attempted.map api.write
  · by_cases hchanged : current.map api.write = changed.map api.write
    · simp [hattempted, ← hattempted.symm.trans hchanged]
    · have hne : attempted.map api.write ≠ changed.map api.write := fun h => hchanged (hattempted.trans h)
      simp [hattempted, hne, @eq_comm _ current]
  · by_cases hchanged : current.map api.write = changed.map api.write
    · have hne : attempted.map api.write ≠ changed.map api.write := fun h => hattempted (hchanged.trans h.symm)
      rw [if_neg hattempted, if_pos hchanged]
      simp [hchanged, hne]
    · simp [hattempted, hchanged]

theorem persists_iff : Persists api keys rw run (persistSettings api keys rw run) ↔
    (¬run.Saved → SnapshotSound api keys rw run) := by
  by_cases hsaved : run.Saved
  · rw [persistSettings_of_saved hsaved]
    refine iff_of_true ?_ fun h => absurd hsaved h
    exact ⟨iff_of_true rfl hsaved, fun _ => rfl, fun h => absurd hsaved h, fun _ _ => rfl⟩
  · have hout : (persistSettings api keys rw run).2.1 = false ∧ _ := persistSettings_of_not_saved hsaved
    obtain ⟨hfalse, hrw⟩ := hout
    have hlisted : ∀ key ∈ keys, (persistSettings api keys rw run).1 key =
        if (apply rw run.writes key).map api.write =
            (apply rw (run.during ++ run.afterMutation) key).map api.write then rw key
        else apply rw run.writes key := by
      intro key hkey
      rw [hrw, rollBack_apply]
      simp [hkey]
    rw [forall_prop_of_true hsaved]
    constructor
    · intro h key hkey
      exact taken_back_iff.mp ((hlisted key hkey).symm.trans (h.taken_back hsaved key hkey))
    · intro h
      refine ⟨by simp [hfalse, hsaved], fun h => absurd h hsaved, fun _ key hkey => ?_, fun key hkey => ?_⟩
      · exact (hlisted key hkey).trans (taken_back_iff.mpr (h key hkey))
      · rw [hrw, rollBack_apply, if_neg (fun h => hkey h.1)]

end Call

/-! ## The callers -/

/-- The settings that a change of the session lists. -/
def runtimeChangeKeys (name : Name) : List Name := [name, name.prev]

/-- The settings that an override lists. -/
def overrideKeys (name : Name) : List Name := [name]

/-- What the options write is written to settings that they list. -/
structure Covers (api : CoreApi) : Prop where
  session (s : Session) (args : ArgsManager) (name : Name) : ∃ writes : List RwWrite,
    (∀ w ∈ writes, w.1 ∈ runtimeChangeKeys name) ∧
      (s.writeToArgs api args name).1 = { args with rw_settings := apply args.rw_settings writes }
  override (args : ArgsManager) (name : Name) (value : SettingsValue) : ∃ writes : List RwWrite,
    (∀ w ∈ writes, w.1 ∈ overrideKeys name) ∧
      (writeCoreSettingOverride api args name value).1 = { args with rw_settings := apply args.rw_settings writes }

theorem covers (api : CoreApi) : Covers api where
  session s args name := by
    cases hname : isSessionSetting name with
    | false => exact ⟨[], by simp, by simp [Session.writeToArgs, hname]⟩
    | true =>
      rw [writeToArgs_eq hname]
      split
      · refine ⟨(s.settingWrites api args name).map stored, ?_, setAll_eq _⟩
        intro w hw
        obtain ⟨write, hwrite, rfl⟩ := List.mem_map.mp hw
        rcases mem_settingWrites.mp hwrite with rfl | hprev
        · simp [stored, runtimeChangeKeys]
        · simp [stored, runtimeChangeKeys, prevWrites_name hprev]
      · exact ⟨[], by simp, rfl⟩
  override args name value := by
    unfold writeCoreSettingOverride
    split
    · exact ⟨[], by simp, rfl⟩
    · exact ⟨[stored (name, guiOverrideValue api args name value)], by simp [stored, overrideKeys],
        setAll_eq [(name, guiOverrideValue api args name value)]⟩

/-- A call persists the change or takes it back exactly where it is saved or its second snapshot is sound. The
options list all that they write. -/
theorem persistSettings_iff (api : CoreApi) (keys : List Name) (rw : RwSettings) (run : PersistRun) :
    Persists api keys rw run (persistSettings api keys rw run) ∧ Covers api ↔
      (¬run.Saved → SnapshotSound api keys rw run) := by
  rw [and_iff_left (covers api)]
  exact persists_iff

/-- The server is switched on, another switches it off, and the file cannot be written. -/
def overwritten : PersistRun where
  during := [(.server, some (.bool true))]
  mutation := .returned true
  afterMutation := [(.server, some (.bool false))]
  duringFile := []
  file := .failed ["Error: Unable to open settings file for writing"]
  late := []

/-- What the other wrote is gone. -/
theorem not_persists_overwritten : ¬∀ (keys : List Name) (rw : RwSettings) (run : PersistRun),
    Persists plainCore keys rw run (persistSettings plainCore keys rw run) := by
  intro h
  have hserver := (h [.server, .prev .server] (fun _ => none) overwritten).taken_back (by decide) .server (by decide)
  revert hserver
  decide

end GuiQml.Settings
