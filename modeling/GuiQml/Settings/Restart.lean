import GuiQml.Settings.Asked
import GuiQml.Settings.Onboarding

/-!
# A call after one that failed

The migration takes the keys out of both stores before anything is saved. A later call then migrates what
is left, and ends with the same settings file when that makes no difference under the touched settings.
-/

namespace GuiQml.Settings

open LastWrite

/-! ## What the touched settings write -/

section Writes

variable {api : CoreApi} {args : ArgsManager} {s : Session} {name : Name}

namespace Session

/-- The write to the `-prev` setting of a proxy. -/
def proxyPrevWrites (api : CoreApi) (key : Name) (enabled : Bool) (address : Str) :
    List (Name × SettingsValue) :=
  if enabled then [(key.prev, .null)]
  else if (trimmed api address).isEmpty then [] else [(key.prev, .str (trimmed api address))]

def prevWrites (api : CoreApi) (s : Session) : Name → List (Name × SettingsValue)
  | .prune =>
    [(.prev .prune, if s.m_values.prune then .null else pruneSetting true s.m_values.prune_size_gb)]
  | .proxy => proxyPrevWrites api .proxy s.m_values.proxy_enabled s.m_values.proxy_address
  | .onion => proxyPrevWrites api .onion s.m_values.tor_enabled s.m_values.tor_address
  | _ => []

def enabled (s : Session) : Name → Bool
  | .prune => s.m_values.prune
  | .proxy => s.m_values.proxy_enabled
  | .onion => s.m_values.tor_enabled
  | _ => true

/-- What the session writes to the setting itself. -/
def override (api : CoreApi) (s : Session) (args : ArgsManager) (name : Name) : SettingsValue :=
  guiOverrideValue api args name (s.settingValue api name)

def settingWrites (api : CoreApi) (s : Session) (args : ArgsManager) (name : Name) :
    List (Name × SettingsValue) :=
  if s.enabled name then (name, s.override api args name) :: s.prevWrites api name
  else s.prevWrites api name ++ [(name, s.override api args name)]

/-- Whether the session's value of a proxy is refused. -/
def refused (api : CoreApi) (s : Session) : Name → Bool
  | .proxy => s.m_values.proxy_enabled &&
      proxyValidationError api (trimmed api s.m_values.proxy_address) ≠ ""
  | .onion => s.m_values.tor_enabled &&
      proxyValidationError api (trimmed api s.m_values.tor_address) ≠ ""
  | _ => false

def accepts (api : CoreApi) (s : Session) (args : ArgsManager) (name : Name) : Bool :=
  canEditCoreSetting args name && !s.refused api name

end Session

open Session

/-- The writes made one after the other. -/
def setAll (args : ArgsManager) (writes : List (Name × SettingsValue)) : ArgsManager :=
  writes.foldl (fun args w => setRwSetting args w.1 w.2) args

theorem setAll_eq (writes : List (Name × SettingsValue)) :
    setAll args writes =
      { args with rw_settings := apply args.rw_settings (writes.map stored) } :=
  foldl_setRwSetting writes args

theorem proxySetting_trimmed (enabled : Bool) (address : Str) :
    proxySetting api enabled (trimmed api address) = proxySetting api enabled address := by
  unfold proxySetting
  rw [trimmed_trimmed]

theorem writeProxySetting_eq {key : Name} {enabled : Bool} {address : Str} :
    writeProxySetting api args key enabled address =
      if canEditCoreSetting args key &&
          !(enabled && proxyValidationError api (trimmed api address) ≠ "") then
        (setAll args (
          if enabled then
            (key, guiOverrideValue api args key (proxySetting api enabled address)) ::
              proxyPrevWrites api key enabled address
          else proxyPrevWrites api key enabled address ++
            [(key, guiOverrideValue api args key (proxySetting api enabled address))]), true)
      else (args, false) := by
  unfold writeProxySetting
  cases hcan : canEditCoreSetting args key with
  | false => rfl
  | true =>
    cases enabled with
    | true =>
      by_cases hvalid : proxyValidationError api (trimmed api address) = ""
      · simp [hvalid, hcan, writeCoreSettingOverride, proxyPrevWrites, setAll, proxySetting_trimmed]
      · simp [hvalid]
    | false =>
      by_cases hblank : trimmed api address = []
      · have hoff : proxySetting api false [] = proxySetting api false address := rfl
        simp [hblank, hcan, writeCoreSettingOverride, proxyPrevWrites, setAll, hoff]
      · simp [hblank, hcan, writeCoreSettingOverride, proxyPrevWrites, setAll, proxySetting_trimmed,
          guiOverrideValue_setRwSetting]

theorem writeToArgs_eq (hname : isSessionSetting name = true) :
    s.writeToArgs api args name =
      if s.accepts api args name then (setAll args (s.settingWrites api args name), true)
      else (args, false) := by
  unfold Session.writeToArgs Session.accepts Session.settingWrites Session.override
  rw [hname]
  cases name with
  | proxy | onion => exact writeProxySetting_eq
  | prune =>
    cases hcan : canEditCoreSetting args .prune <;> cases hon : s.m_values.prune <;>
      simp [hcan, hon, writePruneSetting, writeCoreSettingOverride, Session.refused, Session.enabled,
        Session.prevWrites, Session.settingValue, setAll, guiOverrideValue_setRwSetting]
  | listen | natpmp | server =>
    cases hcan : canEditCoreSetting args _ <;>
      simp [hcan, writeCoreSettingOverride, Session.refused, Session.enabled, Session.prevWrites, setAll]
  | _ => cases hname

theorem settingWrites_rw (rw : RwSettings) :
    s.settingWrites api { args with rw_settings := rw } name = s.settingWrites api args name := rfl

theorem accepts_rw (rw : RwSettings) :
    s.accepts api { args with rw_settings := rw } name = s.accepts api args name := rfl

theorem setAll_append (a b : List (Name × SettingsValue)) :
    setAll args (a ++ b) = setAll (setAll args a) b := by
  unfold setAll
  rw [List.foldl_append]

def touchedNames (s : Session) : List Name := onboardingCoreSettingNames.filter s.isTouched

theorem isSessionSetting_of_touched (h : name ∈ touchedNames s) : isSessionSetting name = true :=
  List.forall_iff_forall_mem.mp
    (show onboardingCoreSettingNames.Forall fun name => isSessionSetting name = true by decide) name
    (List.mem_filter.mp h).1

def writeNext (api : CoreApi) (s : Session) (written : ArgsManager × Bool) (name : Name) :
    ArgsManager × Bool :=
  ((s.writeToArgs api written.1 name).1, (s.writeToArgs api written.1 name).2 && written.2)

theorem writeNext_eq {rw : RwSettings} {ok : Bool} (hname : isSessionSetting name = true) :
    writeNext api s ({ args with rw_settings := rw }, ok) name =
      if s.accepts api args name then
        (setAll { args with rw_settings := rw } (s.settingWrites api args name), ok)
      else ({ args with rw_settings := rw }, false) := by
  unfold writeNext
  dsimp only
  rw [writeToArgs_eq hname, accepts_rw, settingWrites_rw]
  split
  · rw [Bool.true_and]
  · rw [Bool.false_and]

theorem foldl_writeNext (l : List Name) (hl : ∀ name ∈ l, isSessionSetting name = true)
    (rw : RwSettings) (ok : Bool) :
    l.foldl (writeNext api s) ({ args with rw_settings := rw }, ok) =
      (setAll { args with rw_settings := rw }
        ((l.filter (s.accepts api args)).flatMap (s.settingWrites api args)),
        l.all (s.accepts api args) && ok) := by
  induction l generalizing rw ok with
  | nil => rfl
  | cons name l ih =>
    have hrest := fun n hn => hl n (List.mem_cons_of_mem _ hn)
    rw [List.foldl_cons, writeNext_eq (hl name List.mem_cons_self)]
    by_cases haccepts : s.accepts api args name = true
    · rw [if_pos haccepts, setAll_eq, ih hrest, List.filter_cons_of_pos haccepts, List.flatMap_cons,
        setAll_append, setAll_eq (s.settingWrites api args name), List.all_cons, haccepts,
        Bool.true_and]
    · rw [if_neg haccepts, ih hrest, List.filter_cons_of_neg haccepts, List.all_cons]
      simp [haccepts]

theorem writeTouchedToArgs_eq :
    s.writeTouchedToArgs api args =
      (setAll args (((touchedNames s).filter (s.accepts api args)).flatMap (s.settingWrites api args)),
        (touchedNames s).all (s.accepts api args)) := by
  have h := @foldl_writeNext api args s (touchedNames s) (fun _ => isSessionSetting_of_touched)
    args.rw_settings true
  rw [Bool.and_true] at h
  exact h

theorem mem_settingWrites {w : Name × SettingsValue} :
    w ∈ s.settingWrites api args name ↔
      w = (name, s.override api args name) ∨ w ∈ s.prevWrites api name := by
  unfold Session.settingWrites
  split
  · exact List.mem_cons
  · rw [List.mem_append, List.mem_singleton, or_comm]

theorem prevWrites_name {w : Name × SettingsValue} (hw : w ∈ s.prevWrites api name) :
    w.1 = name.prev := by
  have hproxy : ∀ {key : Name} {enabled : Bool} {address : Str},
      w ∈ proxyPrevWrites api key enabled address → w.1 = key.prev := by
    intro key enabled address hw
    unfold proxyPrevWrites at hw
    split at hw
    · rw [List.mem_singleton.mp hw]
    split at hw
    · cases hw
    · rw [List.mem_singleton.mp hw]
  cases name with
  | prune => rw [List.mem_singleton.mp hw]
  | proxy | onion => exact hproxy hw
  | _ => cases hw

theorem settingWrites_congr {args' : ArgsManager}
    (h : s.override api args' name = s.override api args name) :
    s.settingWrites api args' name = s.settingWrites api args name := by
  unfold Session.settingWrites
  rw [h]

theorem isNull_settingValue (hname : isSessionSetting name = true) :
    (s.settingValue api name).isNull = false := by
  cases name with
  | listen | natpmp | server => rfl
  | prune => exact isNull_pruneSetting _ _
  | proxy | onion => exact isNull_proxySetting _ _
  | _ => cases hname

theorem override_cases (api : CoreApi) (s : Session) (args : ArgsManager) (name : Name) :
    s.override api args name = .null ∨
      s.override api args name = s.settingValue api name := by
  unfold Session.override guiOverrideValue
  dsimp only
  split_ifs <;> simp

theorem override_eq_of_stored {args' : ArgsManager} (hname : isSessionSetting name = true)
    (h : (stored (name, s.override api args' name)).2 = (stored (name, s.override api args name)).2) :
    s.override api args' name = s.override api args name := by
  have hvalue : s.settingValue api name ≠ .null := fun hnull => by
    have := @isNull_settingValue api s name hname
    rw [hnull] at this
    cases this
  rcases override_cases api s args' name with h' | h' <;>
    rcases override_cases api s args name with h'' | h'' <;>
    simp [stored, h', h'', hvalue, SettingsValue.isNull] at h ⊢

end Writes

/-! ## A migration after another -/

section Remigration

variable {V : Type} {api : CoreApi} {qt : QVariantApi V} {mode : MigrationMode} {version : Int}

theorem migrateStore_settings (args : ArgsManager) (store : SettingsStore V) {x : LegacySetting}
    (hx : x ∈ legacySettings api store.legacy_qt) {key : LegacyKey} (hkey : key ∈ x.keys) :
    (migrateStore api qt args store .persist).settings key = none := by
  unfold migrateStore migrateSettings
  split
  · rename_i hnone
    simpa using List.all_eq_true.mp hnone key (keys_subset_legacyCoreKeys hx key hkey)
  · dsimp only
    rw [foldl_migrateSetting_settings, if_pos ⟨rfl, x, hx, hkey⟩]

theorem migrateSetting_of_no_keys {x : LegacySetting} {m : Migration V}
    (h : ∀ key ∈ x.keys, m.settings key = none) :
    migrateSetting api qt mode version m x = m := by
  rw [migrateSetting_eq]
  unfold migrateKeys
  rw [if_pos]
  exact List.all_eq_true.mpr fun key hkey => by rw [h key hkey]; rfl

theorem foldl_migrateSetting_of_no_keys {m : Migration V} (l : List LegacySetting)
    (h : ∀ x ∈ l, ∀ key ∈ x.keys, m.settings key = none) :
    l.foldl (migrateSetting api qt mode version) m = m := by
  induction l with
  | nil => rfl
  | cons y l ih =>
    rw [List.foldl_cons, migrateSetting_of_no_keys (h y List.mem_cons_self)]
    exact ih fun x hx => h x (List.mem_cons_of_mem _ hx)

theorem migrateStore_args_of_no_keys (args : ArgsManager) (store : SettingsStore V)
    (h : ∀ x ∈ legacySettings api store.legacy_qt, ∀ key ∈ x.keys, store.settings key = none) :
    (migrateStore api qt args store mode).args = args := by
  unfold migrateStore migrateSettings
  split
  · rfl
  · dsimp only
    rw [foldl_migrateSetting_of_no_keys]
    intro x hx key hkey
    exact (updateLegacySettingsVersion_of_ne fun hversion => version_notMem_keys x (hversion ▸ hkey)).trans
      (h x hx key hkey)

theorem migratedRw_of_no_keys {args : ArgsManager} {qml bitcoin_qt : QSettings V}
    (hqml : ∀ x ∈ legacySettings api false, ∀ key ∈ x.keys, qml key = none)
    (hqt : ∀ x ∈ legacySettings api true, ∀ key ∈ x.keys, bitcoin_qt key = none) :
    migratedRw api qt args qml bitcoin_qt mode = args.rw_settings := by
  unfold migratedRw migrateCoreSettings
  split
  · rfl
  · dsimp only
    rw [migrateStore_args_of_no_keys args ⟨false, qml⟩ hqml,
      migrateStore_args_of_no_keys args ⟨true, bitcoin_qt⟩ hqt]

theorem migratedRw_again (args args' : ArgsManager) (qml bitcoin_qt : QSettings V)
    (hpath : args.settings_path = true) :
    migratedRw api qt args' (migrateCoreSettings api qt args qml bitcoin_qt .persist).qml
      (migrateCoreSettings api qt args qml bitcoin_qt .persist).bitcoin_qt mode = args'.rw_settings := by
  refine migratedRw_of_no_keys (fun x hx key hkey => ?_) (fun x hx key hkey => ?_)
  · unfold migrateCoreSettings
    rw [hpath]
    exact migrateStore_settings args ⟨false, qml⟩ hx hkey
  · unfold migrateCoreSettings
    rw [hpath]
    exact migrateStore_settings _ ⟨true, bitcoin_qt⟩ hx hkey

end Remigration

/-! ## One call -/

namespace Startup

variable {V : Type} (startup : Startup V) (attempt : Attempt) (files : Files V) (rw : RwSettings)

def choices : Session where
  m_values := startup.values
  m_touched_settings := startup.touched_settings

def withRw : ArgsManager := { startup.args with rw_settings := rw }

/-- The arguments under the parameter interaction of these settings. -/
def adjusted : ArgsManager :=
  { startup.withRw rw with forced_settings := startup.initParameterInteraction (startup.withRw rw) }

def touchedWrites : List (Name × SettingsValue) :=
  (touchedNames startup.choices).flatMap
    (startup.choices.settingWrites startup.api (startup.adjusted rw))

def accepted : Bool :=
  (touchedNames startup.choices).all (startup.choices.accepts startup.api startup.args)

/-- The settings file that is written after these settings. -/
def saved : RwSettings :=
  Function.update (apply rw ((startup.touchedWrites rw).map stored)) .qml_onboarded (some (.bool true))

theorem writeTouchedSettings_eq :
    (startup.writeTouchedSettings (startup.withRw rw)).2 = startup.accepted ∧
      (startup.accepted = true → (startup.writeTouchedSettings (startup.withRw rw)).1 =
        startup.withRw (apply rw ((startup.touchedWrites rw).map stored))) := by
  have h : startup.writeTouchedSettings (startup.withRw rw) =
      ({ (startup.choices.writeTouchedToArgs startup.api (startup.adjusted rw)).1 with
          forced_settings := startup.args.forced_settings },
        (startup.choices.writeTouchedToArgs startup.api (startup.adjusted rw)).2) := rfl
  rw [h, writeTouchedToArgs_eq]
  refine ⟨rfl, fun haccepted => ?_⟩
  have hall : (touchedNames startup.choices).filter
      (startup.choices.accepts startup.api (startup.adjusted rw)) = touchedNames startup.choices :=
    List.filter_eq_self.mpr fun name hname => List.all_eq_true.mp haccepted name hname
  rw [hall, setAll_eq]
  rfl

theorem applyMigrated_eq (hpath : startup.args.settings_path = true) :
    startup.applyMigrated attempt files (startup.withRw rw) =
      if startup.accepted && attempt.writeSettingsFile then
        ({ files with settings := startup.saved rw },
          !shouldPersistGuiDataDirSelection startup.data_dir_selection startup.explicit_datadir ||
            attempt.persistDataDirSelection)
      else (files, false) := by
  obtain ⟨hok, hargs⟩ := startup.writeTouchedSettings_eq rw
  unfold applyMigrated
  dsimp only
  rw [hok]
  cases haccepted : startup.accepted with
  | false => rfl
  | true =>
    have hsaved : (setRwSetting (startup.withRw (apply rw ((startup.touchedWrites rw).map stored)))
        .qml_onboarded (.bool true)).rw_settings = startup.saved rw := rfl
    have hpath' : (setRwSetting (startup.withRw (apply rw ((startup.touchedWrites rw).map stored)))
        .qml_onboarded (.bool true)).settings_path = true := hpath
    rw [hargs haccepted, hsaved, hpath']
    cases attempt.writeSettingsFile <;> rfl

/-- What the migration of the files makes of the settings. -/
def migrated : RwSettings :=
  migratedRw startup.api startup.qt (startup.withRw files.settings) files.qml files.bitcoin_qt .persist

/-- What the migration leaves of both stores. -/
def leftStores : QSettings V × QSettings V :=
  match attempt.migration_error with
  | some error => interruptedMigration startup.api startup.qt (startup.withRw files.settings) files.qml
      files.bitcoin_qt .persist error
  | none =>
    let m := migrateCoreSettings startup.api startup.qt (startup.withRw files.settings) files.qml
      files.bitcoin_qt .persist
    (m.qml, m.bitcoin_qt)

def saves : Bool :=
  attempt.migration_error.isNone && startup.accepted && attempt.writeSettingsFile

theorem readSettingsFile_eq (hpath : startup.args.settings_path = true) :
    startup.readSettingsFile files = startup.withRw files.settings := by
  unfold readSettingsFile withRw
  rw [if_pos hpath]

theorem migrateCoreSettings_args {api : CoreApi} {qt : QVariantApi V} {args : ArgsManager}
    {qml bitcoin_qt : QSettings V} {mode : MigrationMode} :
    (migrateCoreSettings api qt args qml bitcoin_qt mode).args =
      { args with rw_settings := migratedRw api qt args qml bitcoin_qt mode } := by
  unfold migratedRw migrateCoreSettings
  split
  · rfl
  · dsimp only
    unfold migrateStore
    rw [migrateSettings_args, migrateSettings_args args ⟨false, qml⟩]

theorem applyToArgs_eq (hpath : startup.args.settings_path = true) :
    startup.applyToArgs attempt files =
      if startup.readsFiles attempt then
        (⟨if startup.saves attempt then startup.saved (startup.migrated files) else files.settings,
            (startup.leftStores attempt files).1, (startup.leftStores attempt files).2⟩,
          startup.saves attempt &&
            (!shouldPersistGuiDataDirSelection startup.data_dir_selection startup.explicit_datadir ||
              attempt.persistDataDirSelection))
      else (files, false) := by
  unfold applyToArgs
  cases hreads : startup.readsFiles attempt with
  | false => rfl
  | true =>
    simp only [Bool.not_true, Bool.false_eq_true, if_false, if_true, hpath]
    rw [readSettingsFile_eq startup files hpath]
    unfold leftStores saves
    cases attempt.migration_error with
    | some error => rfl
    | none =>
      dsimp only
      rw [migrateCoreSettings_args]
      refine (startup.applyMigrated_eq attempt _ (startup.migrated files) hpath).trans ?_
      cases startup.accepted <;> cases attempt.writeSettingsFile <;> rfl

/-! ## What is saved -/

theorem saved_apply (k : Name) : startup.saved rw k =
    if k = .qml_onboarded then some (.bool true)
    else (last ((startup.touchedWrites rw).map stored) k).getD (rw k) := by
  unfold saved
  rw [Function.update_apply, apply_eq_last]

/-- The names that a call sets whatever stands there. -/
def Overwrites (k : Name) : Prop :=
  k = .qml_onboarded ∨ ∃ name ∈ touchedNames startup.choices,
    k = name ∨ ∃ w ∈ startup.choices.prevWrites startup.api name, w.1 = k

/-- The touched settings are written the same after either settings. -/
def SameOverrides (rw rw' : RwSettings) : Prop :=
  ∀ name ∈ touchedNames startup.choices,
    startup.choices.override startup.api (startup.adjusted rw') name =
      startup.choices.override startup.api (startup.adjusted rw) name

theorem mem_touchedWrites {w : Name × SettingsValue} : w ∈ startup.touchedWrites rw ↔
    ∃ name ∈ touchedNames startup.choices,
      w = (name, startup.choices.override startup.api (startup.adjusted rw) name) ∨
        w ∈ startup.choices.prevWrites startup.api name := by
  unfold touchedWrites
  simp only [List.mem_flatMap, mem_settingWrites]

theorem last_of_overwrites {k : Name} (h : startup.Overwrites k) (hk : k ≠ .qml_onboarded) :
    (last ((startup.touchedWrites rw).map stored) k).isSome = true := by
  obtain ⟨name, hname, hcase⟩ := h.resolve_left hk
  have hwritten : ∃ w ∈ startup.touchedWrites rw, w.1 = k := by
    rcases hcase with rfl | ⟨w, hw, hwk⟩
    · exact ⟨_, (startup.mem_touchedWrites rw).mpr ⟨k, hname, .inl rfl⟩, rfl⟩
    · exact ⟨w, (startup.mem_touchedWrites rw).mpr ⟨name, hname, .inr hw⟩, hwk⟩
  obtain ⟨w, hw, rfl⟩ := hwritten
  exact isSome_last_of_mem (List.mem_map_of_mem hw)

theorem last_of_not_overwrites {k : Name} (h : ¬startup.Overwrites k) :
    last ((startup.touchedWrites rw).map stored) k = none := by
  refine last_eq_none fun value hmem => h (.inr ?_)
  obtain ⟨w, hw, heq⟩ := List.mem_map.mp hmem
  have hwk : w.1 = k := congrArg Prod.fst heq
  obtain ⟨name, hname, rfl | hprev⟩ := (startup.mem_touchedWrites rw).mp hw
  · exact ⟨name, hname, .inl hwk.symm⟩
  · exact ⟨name, hname, .inr ⟨w, hprev, hwk⟩⟩

theorem last_of_touched {name : Name} (hname : name ∈ touchedNames startup.choices) :
    last ((startup.touchedWrites rw).map stored) name =
      some (stored (name, startup.choices.override startup.api (startup.adjusted rw) name)).2 := by
  refine last_eq_of_unique (List.mem_map.mpr
    ⟨_, (startup.mem_touchedWrites rw).mpr ⟨name, hname, .inl rfl⟩, rfl⟩) fun v hv => ?_
  obtain ⟨w, hw, heq⟩ := List.mem_map.mp hv
  have hwname : w.1 = name := congrArg Prod.fst heq
  obtain ⟨other, hother, rfl | hprev⟩ := (startup.mem_touchedWrites rw).mp hw
  · obtain rfl : other = name := hwname
    exact (congrArg Prod.snd heq).symm
  · have hsession := isSessionSetting_of_touched hname
    rw [← hwname, prevWrites_name hprev] at hsession
    cases hsession

/-- Two settings lead to the same file when they differ only where it is overwritten, and the touched
settings are written the same. -/
theorem saved_eq_iff {rw rw' : RwSettings} : startup.saved rw' = startup.saved rw ↔
    (∀ k, ¬startup.Overwrites k → rw' k = rw k) ∧ startup.SameOverrides rw rw' := by
  constructor
  · intro h
    refine ⟨fun k hk => ?_, fun name hname => ?_⟩
    · have heq := congrFun h k
      have hne : k ≠ .qml_onboarded := fun hon => hk (.inl hon)
      simpa only [saved_apply, if_neg hne, startup.last_of_not_overwrites _ hk, Option.getD_none]
        using heq
    · have heq := congrFun h name
      have hsession := isSessionSetting_of_touched hname
      have hne : name ≠ .qml_onboarded := fun hon => by
        rw [hon] at hsession
        cases hsession
      simp only [saved_apply, if_neg hne, startup.last_of_touched _ hname, Option.getD_some] at heq
      exact override_eq_of_stored hsession heq
  · rintro ⟨hkept, hsame⟩
    have hwrites : startup.touchedWrites rw' = startup.touchedWrites rw := by
      unfold touchedWrites
      exact List.flatMap_congr fun name hname => settingWrites_congr (hsame name hname)
    funext k
    rw [saved_apply, saved_apply, hwrites]
    by_cases hk : k = .qml_onboarded
    · rw [if_pos hk, if_pos hk]
    · rw [if_neg hk, if_neg hk]
      by_cases hover : startup.Overwrites k
      · obtain ⟨v, hv⟩ := Option.isSome_iff_exists.mp (startup.last_of_overwrites rw hover hk)
        rw [hv, Option.getD_some, Option.getD_some]
      · rw [hkept k hover]

/-! ## The later call -/

theorem writeTouchedSettings_path (args : ArgsManager) :
    (startup.writeTouchedSettings args).1.settings_path = args.settings_path := by
  unfold writeTouchedSettings
  dsimp only
  rw [writeTouchedToArgs_eq, setAll_eq]

theorem applyMigrated_of_no_path {args : ArgsManager} (hpath : args.settings_path = false) :
    (startup.applyMigrated attempt files args).1 = files := by
  have hwritten : (setRwSetting (startup.writeTouchedSettings args).1 .qml_onboarded
      (.bool true)).settings_path = false := (startup.writeTouchedSettings_path args).trans hpath
  unfold applyMigrated
  dsimp only
  rw [hwritten]
  split <;> rfl

theorem settings_of_no_path (hpath : startup.args.settings_path = false) :
    (startup.applyToArgs attempt files).1.settings = files.settings := by
  unfold applyToArgs
  split
  · rfl
  · simp only [hpath, Bool.false_eq_true, if_false]
    rw [applyMigrated_of_no_path]
    rw [migrateCoreSettings_args]
    exact hpath

/-- What the keys of the files ask for. -/
def asks : Asks :=
  decisive (storeAsks startup.api startup.qt ⟨false, files.qml⟩)
    (storeAsks startup.api startup.qt ⟨true, files.bitcoin_qt⟩)

/-- What the keys ask for that the call leaves: those of the settings that an exception kept from their turn, and
otherwise none. -/
def asksLeft : Asks :=
  match attempt.migration_error with
  | none => fun _ _ => none
  | some error =>
    let taken := (legacySettings startup.api error.legacy_qt).take error.done
    if error.legacy_qt then leftAsks startup.api startup.qt ⟨true, files.bitcoin_qt⟩ taken
    else decisive (leftAsks startup.api startup.qt ⟨false, files.qml⟩ taken)
      (storeAsks startup.api startup.qt ⟨true, files.bitcoin_qt⟩)

/-- Under the names that the touched settings do not overwrite, what is left asks for the same, where nothing asked
for is what the settings file says. -/
def AsksKept : Prop :=
  ∀ x : LegacySetting, hasPersistentSetting (startup.withRw files.settings) x.name = false →
    ∀ k ∈ x.names, ¬startup.Overwrites k →
      (startup.asksLeft attempt files x k).getD (files.settings k) =
        (startup.asks files x k).getD (files.settings k)

/-- The settings that the keys of the files ask for. -/
def asked : RwSettings := askedRw (startup.withRw files.settings) (startup.asks files)

/-- Those that the keys ask for that the call leaves. -/
def askedLeft : RwSettings := askedRw (startup.withRw files.settings) (startup.asksLeft attempt files)

/-- Whether the keys that a failed call takes make no difference to a later one. -/
def NothingLost : Prop :=
  startup.args.settings_path = false ∨ startup.readsFiles attempt = false ∨
    if attempt.migration_error.isNone && attempt.writeSettingsFile then
      startup.SameOverrides (startup.asked files) (startup.saved (startup.asked files))
    else
      startup.AsksKept attempt files ∧ startup.SameOverrides (startup.asked files) (startup.askedLeft attempt files)

theorem migrated_eq_asked (hpath : startup.args.settings_path = true) : startup.migrated files = startup.asked files :=
  migratedRw_eq_asked hpath

/-- A later migration comes to what the keys ask for that are left. -/
theorem migrated_eq_askedLeft (hpath : startup.args.settings_path = true) :
    startup.migrated ⟨files.settings, (startup.leftStores attempt files).1, (startup.leftStores attempt files).2⟩ =
      startup.askedLeft attempt files := by
  have hpath' : (startup.withRw files.settings).settings_path = true := hpath
  rw [migrated_eq_asked _ _ hpath]
  unfold asked askedLeft
  congr 1
  unfold asks asksLeft leftStores
  cases attempt.migration_error with
  | none =>
    dsimp only
    unfold migrateCoreSettings
    simp only [hpath', Bool.not_true, Bool.false_eq_true, if_false]
    rw [storeAsks_migrateStore, storeAsks_migrateStore, decisive_none]
  | some error =>
    dsimp only
    unfold interruptedMigration
    cases error.legacy_qt with
    | true =>
      simp only [if_true]
      rw [storeAsks_migrateStore, storeAsks_migrateSettings, decisive_none]
    | false =>
      simp only [Bool.false_eq_true, if_false]
      rw [storeAsks_migrateSettings]

theorem asksKept_iff : startup.AsksKept attempt files ↔
    ∀ k, ¬startup.Overwrites k → startup.askedLeft attempt files k = startup.asked files k := by
  unfold asked askedLeft
  constructor
  · intro h k hk
    by_cases hsetting : ∃ x : LegacySetting, k ∈ x.names
    · obtain ⟨x, hx⟩ := hsetting
      rw [askedRw_of_mem hx, askedRw_of_mem hx]
      split
      · rfl
      · rename_i hheld
        exact h x (by simpa using hheld) k hx hk
    · rw [not_exists] at hsetting
      rw [askedRw_of_no_setting hsetting, askedRw_of_no_setting hsetting]
  · intro h x hheld k hx hk
    have heq := h k hk
    rwa [askedRw_of_mem hx, askedRw_of_mem hx, hheld, if_neg Bool.false_ne_true, if_neg Bool.false_ne_true] at heq

theorem nothing_lost_iff (first later : Attempt)
    (hlater : (startup.applyToArgs later (startup.applyToArgs first files).1).2 = true) :
    (startup.applyToArgs later (startup.applyToArgs first files).1).1.settings =
        (startup.applyToArgs later files).1.settings ↔
      startup.NothingLost first files := by
  by_cases hpath : startup.args.settings_path = false
  · refine iff_of_true ?_ (.inl hpath)
    rw [settings_of_no_path _ _ _ hpath, settings_of_no_path _ _ _ hpath,
      settings_of_no_path _ _ _ hpath]
  rw [NothingLost, or_iff_right hpath]
  rw [Bool.not_eq_false] at hpath
  by_cases hreads : startup.readsFiles first = false
  · refine iff_of_true ?_ (.inl hreads)
    rw [startup.applyToArgs_eq first files hpath, if_neg (by simp [hreads])]
  rw [or_iff_right hreads]
  rw [Bool.not_eq_false] at hreads
  -- The later call succeeds, so the touched settings are accepted and both files are written.
  rw [startup.applyToArgs_eq later _ hpath] at hlater
  have hreads' : startup.readsFiles later = true := by
    by_contra hno
    rw [if_neg hno] at hlater
    cases hlater
  rw [if_pos hreads'] at hlater
  have hsaves : startup.saves later = true := (Bool.and_eq_true_iff.mp hlater).1
  have hsettings : ∀ files, (startup.applyToArgs later files).1.settings =
      startup.saved (startup.migrated files) := by
    intro files
    rw [startup.applyToArgs_eq later files hpath, if_pos hreads', if_pos hsaves]
  have haccepted : startup.accepted = true := by
    unfold saves at hsaves
    simp only [Bool.and_eq_true] at hsaves
    exact hsaves.1.2
  rw [hsettings, hsettings, startup.applyToArgs_eq first files hpath, if_pos hreads, saved_eq_iff,
    migrated_eq_asked _ files hpath, asksKept_iff]
  have hsaves_first : startup.saves first = (first.migration_error.isNone && first.writeSettingsFile) := by
    unfold saves
    rw [haccepted, Bool.and_true]
  rw [hsaves_first]
  by_cases hwritten : (first.migration_error.isNone && first.writeSettingsFile) = true
  · rw [if_pos hwritten, if_pos hwritten]
    -- The keys are gone, and what was written stays under the names that nothing overwrites.
    have hnone : first.migration_error = none := Option.isNone_iff_eq_none.mp (Bool.and_eq_true_iff.mp hwritten).1
    have hremigrated : startup.migrated ⟨startup.saved (startup.asked files), (startup.leftStores first files).1,
        (startup.leftStores first files).2⟩ = startup.saved (startup.asked files) := by
      unfold leftStores
      rw [hnone]
      exact migratedRw_again _ (startup.withRw _) _ _ hpath
    rw [hremigrated]
    refine and_iff_right fun k hk => ?_
    have hne : k ≠ .qml_onboarded := fun hon => hk (.inl hon)
    rw [saved_apply, if_neg hne, startup.last_of_not_overwrites _ hk, Option.getD_none]
  · rw [if_neg hwritten, if_neg hwritten, migrated_eq_askedLeft _ _ _ hpath]

end Startup

/-! ## Pruning lost -/

/-- A start with the default choices, where no setting was touched. -/
def plainStartup : Startup Int where
  api := plainCore
  qt := plainVariant
  initParameterInteraction args := args.forced_settings
  args := emptyArgs
  explicit_datadir := false
  data_dir_selection := ⟨.Default, true⟩
  touched_settings := []
  values := loadPersistentValues plainCore emptyArgs

/-- Only the QML store says something: to prune. -/
def pruningFiles : Files Int := ⟨fun _ => none, oneKey .bPrune 1, fun _ => none⟩

def failedWrite : Attempt := { writeSettingsFile := false }

theorem nothing_lost_iff_pruning :
    (plainStartup.applyToArgs {} (plainStartup.applyToArgs failedWrite pruningFiles).1).1.settings =
        (plainStartup.applyToArgs {} pruningFiles).1.settings ↔
      plainStartup.NothingLost failedWrite pruningFiles :=
  plainStartup.nothing_lost_iff pruningFiles failedWrite {} (by decide +kernel)

/-- The write of the settings file fails after the key is gone, and the next start does not prune. -/
theorem failed_write_loses_pruning :
    let failed := plainStartup.applyToArgs failedWrite pruningFiles
    let later := plainStartup.applyToArgs {} failed.1
    failed.2 = false ∧ later.2 = true ∧ later.1.settings .prune = none ∧
      ((plainStartup.applyToArgs {} pruningFiles).1.settings .prune).isSome = true := by
  decide +kernel

end GuiQml.Settings
