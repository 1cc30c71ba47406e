import GuiQml.Settings.CoreSettings
import GuiQml.Lib.LastWrite

/-!
# Migrating legacy settings

`MigrateCoreSettings` of `legacy_settings_migration.cpp`: the QML store first, then the one of
Bitcoin-Qt. A setting that is there already stays.
-/

namespace GuiQml.Settings

/-! ## Stores -/

inductive LegacyKey
  | nSettingsVersion | nDatabaseCache | nThreadsScriptVerif | bSpendZeroConfChange
  | external_signer_path | fUseNatpmp | fListen | server | nPruneSize | bPrune | addrProxy | fUseProxy
  | addrSeparateProxyTor | fUseSeparateProxyTor | language
  deriving DecidableEq

/-- The conversions of a `QVariant`. -/
structure QVariantApi (V : Type) where
  toInt : V → Int
  toLongLong : V → Int
  toBool : V → Bool
  toString : V → Str
  ofInt : Int → V

abbrev QSettings (V : Type) := LegacyKey → Option V

structure SettingsStore (V : Type) where
  legacy_qt : Bool
  settings : QSettings V

inductive MigrationMode
  | preview
  | persist
  deriving DecidableEq

def legacyCoreKeys (include_language : Bool) : List LegacyKey :=
  [.nSettingsVersion, .nDatabaseCache, .nThreadsScriptVerif, .bSpendZeroConfChange,
    .external_signer_path, .fUseNatpmp, .fListen, .server, .nPruneSize, .bPrune, .addrProxy,
    .fUseProxy, .addrSeparateProxyTor, .fUseSeparateProxyTor] ++
  if include_language then [.language] else []

def QSettings.remove {V : Type} (settings : QSettings V) (keys : List LegacyKey) : QSettings V :=
  fun key => if key ∈ keys then none else settings key

section Migration

variable {V : Type} (api : CoreApi) (qt : QVariantApi V)

/-! ## Values -/

def migrationDefaultValue : Name → SettingsValue
  | .listen => .bool api.DEFAULT_LISTEN
  | .natpmp => .bool api.DEFAULT_NATPMP
  | .server => .bool false
  | .prune => .int 0
  | .dbcache => .int (api.DEFAULT_DB_CACHE >>> 20)
  | .par => .int api.DEFAULT_SCRIPTCHECK_THREADS
  | .signer => .str []
  | .lang => .str []
  | .spendzeroconfchange =>
    if api.ENABLE_WALLET then .bool api.DEFAULT_SPEND_ZEROCONF_CHANGE else .null
  | _ => .null

def migrationValuesEqual (name : Name) (left right : SettingsValue) : Bool :=
  if name = .spendzeroconfchange then bothEqual (api.settingToBool left) (api.settingToBool right)
  else coreSettingValuesEqual api name left right

def hasPersistentSetting (args : ArgsManager) (name : Name) : Bool :=
  !(args.getPersistentSetting name).isNull

def parseLegacyPruneSizeGB (prune_size : V) : Int := max 1 (qt.toInt prune_size)

def parsedProxyAddress (proxy : V) : Str :=
  let value := trimmed api (qt.toString proxy)
  if "%2".toList.isSuffixOf value then defaultProxyAddress
  else
    let (split, port, host) := api.splitHostPort value 0
    if split && port ≠ 0 then
      let host := if host.contains ':' then '[' :: host ++ [']'] else host
      let value := host ++ ':' :: Nat.toDigits 10 port
      if proxyValidationError api value = "" then value else defaultProxyAddress
    else defaultProxyAddress

/-! ## What the keys of a setting ask for -/

/-- The writes of `MigrateSimpleSetting`, where the setting is not there yet. -/
def simpleWrites (settings : QSettings V) (qt_name : LegacyKey) (core_name : Name)
    (convert : V → SettingsValue) : List (Name × SettingsValue) :=
  match settings qt_name with
  | none => []
  | some value =>
    if migrationValuesEqual api core_name (convert value) (migrationDefaultValue api core_name) then []
    else [(core_name, convert value)]

/-- Those of `MigratePruneSettings`. -/
def pruneWrites (settings : QSettings V) : List (Name × SettingsValue) :=
  let prune_size_gb :=
    ((settings .nPruneSize).map (parseLegacyPruneSizeGB qt)).getD DEFAULT_PRUNE_TARGET_GB
  if ((settings .bPrune).map qt.toBool).getD false then
    (if migrationValuesEqual api .prune (pruneSetting true prune_size_gb)
        (migrationDefaultValue api .prune) then []
      else [(.prune, pruneSetting true prune_size_gb)]) ++ [(.prev .prune, .null)]
  else if (settings .nPruneSize).isSome then [(.prev .prune, pruneSetting true prune_size_gb)]
  else []

/-- Those of `MigrateProxySettings`. -/
def proxyWrites (settings : QSettings V) (address_key enabled_key : LegacyKey) (core_name : Name) :
    List (Name × SettingsValue) :=
  let address :=
    ((settings address_key).map (parsedProxyAddress api qt)).getD defaultProxyAddress
  if ((settings enabled_key).map qt.toBool).getD false then
    [(core_name, proxySetting api true address), (core_name.prev, .null)]
  else if (settings address_key).isSome then [(core_name.prev, .str address)]
  else []

/-! ## The migration of one setting -/

/-- The arguments, the store and whether something changed. -/
structure Migration (V : Type) where
  args : ArgsManager
  settings : QSettings V
  changed : Bool := false

/-- The common part: keys that are there are written unless the setting is there, and removed. -/
def migrateKeys (mode : MigrationMode) (keys : List LegacyKey) (core_name : Name)
    (writes : List (Name × SettingsValue)) (m : Migration V) : Migration V :=
  if keys.all fun key => (m.settings key).isNone then m
  else
    let m := if hasPersistentSetting m.args core_name then m
      else { m with
        args := writes.foldl (fun args w => setRwSetting args w.1 w.2) m.args
        changed := m.changed || writes.any fun w => !w.2.isNull }
    if mode = .persist then { m with settings := m.settings.remove keys } else m

def migrateSimpleSetting (mode : MigrationMode) (qt_name : LegacyKey) (core_name : Name)
    (convert : V → SettingsValue) (m : Migration V) : Migration V :=
  migrateKeys mode [qt_name] core_name (simpleWrites api m.settings qt_name core_name convert) m

def migratePruneSettings (mode : MigrationMode) (m : Migration V) : Migration V :=
  migrateKeys mode [.nPruneSize, .bPrune] .prune (pruneWrites api qt m.settings) m

def migrateProxySettings (mode : MigrationMode) (address_key enabled_key : LegacyKey)
    (core_name : Name) (m : Migration V) : Migration V :=
  migrateKeys mode [address_key, enabled_key] core_name
    (proxyWrites api qt m.settings address_key enabled_key core_name) m

/-! ## A store -/

/-- The settings that are migrated. -/
inductive LegacySetting
  | dbcache | par | spendzeroconfchange | signer | natpmp | listen | server | prune | proxy | onion | lang
  deriving DecidableEq

def migrateSetting (mode : MigrationMode) (settings_version : Int) (m : Migration V) :
    LegacySetting → Migration V
  | .dbcache => migrateSimpleSetting api mode .nDatabaseCache .dbcache (fun value =>
      .int (if settings_version < 130000 && qt.toLongLong value = 100 then api.DEFAULT_DB_CACHE >>> 20
        else qt.toLongLong value)) m
  | .par => migrateSimpleSetting api mode .nThreadsScriptVerif .par (fun value =>
      .int (qt.toLongLong value)) m
  | .spendzeroconfchange =>
    migrateSimpleSetting api mode .bSpendZeroConfChange .spendzeroconfchange (fun value =>
      .bool (qt.toBool value)) m
  | .signer => migrateSimpleSetting api mode .external_signer_path .signer (fun value =>
      .str (qt.toString value)) m
  | .natpmp => migrateSimpleSetting api mode .fUseNatpmp .natpmp (fun value =>
      .bool (qt.toBool value)) m
  | .listen => migrateSimpleSetting api mode .fListen .listen (fun value => .bool (qt.toBool value)) m
  | .server => migrateSimpleSetting api mode .server .server (fun value => .bool (qt.toBool value)) m
  | .prune => migratePruneSettings api qt mode m
  | .proxy => migrateProxySettings api qt mode .addrProxy .fUseProxy .proxy m
  | .onion => migrateProxySettings api qt mode .addrSeparateProxyTor .fUseSeparateProxyTor .onion m
  | .lang => migrateSimpleSetting api mode .language .lang (fun value => .str (qt.toString value)) m

/-- The settings of a store, in order. -/
def legacySettings (include_language : Bool) : List LegacySetting :=
  [.dbcache, .par] ++ (if api.ENABLE_WALLET then [.spendzeroconfchange, .signer] else []) ++
    [.natpmp, .listen, .server, .prune, .proxy, .onion] ++ if include_language then [.lang] else []

def legacySettingsVersion (settings : QSettings V) : Int :=
  ((settings .nSettingsVersion).map qt.toInt).getD 0

def updateLegacySettingsVersion (settings : QSettings V) (settings_version : Int)
    (mode : MigrationMode) : QSettings V :=
  if settings_version < api.CLIENT_VERSION && mode = .persist then
    Function.update settings .nSettingsVersion (some (qt.ofInt api.CLIENT_VERSION))
  else settings

/-- `MigrateStore` over these of the settings. -/
def migrateSettings (args : ArgsManager) (store : SettingsStore V) (mode : MigrationMode)
    (l : List LegacySetting) : Migration V :=
  if (legacyCoreKeys store.legacy_qt).all fun key => (store.settings key).isNone then
    { args, settings := store.settings }
  else
    let settings_version := legacySettingsVersion qt store.settings
    let settings := updateLegacySettingsVersion api qt store.settings settings_version mode
    l.foldl (migrateSetting api qt mode settings_version) { args, settings }

def migrateStore (args : ArgsManager) (store : SettingsStore V) (mode : MigrationMode) :
    Migration V :=
  migrateSettings api qt args store mode (legacySettings api store.legacy_qt)

/-- The arguments, both stores and whether something changed. -/
structure CoreMigration (V : Type) where
  args : ArgsManager
  qml : QSettings V
  bitcoin_qt : QSettings V
  settings_changed : Bool

def migrateCoreSettings (args : ArgsManager) (qml bitcoin_qt : QSettings V) (mode : MigrationMode) :
    CoreMigration V :=
  if !args.settings_path then ⟨args, qml, bitcoin_qt, false⟩
  else
    let first := migrateStore api qt args ⟨false, qml⟩ mode
    let second := migrateStore api qt first.args ⟨true, bitcoin_qt⟩ mode
    ⟨second.args, first.settings, second.settings, first.changed || second.changed⟩

/-- Where an exception ends a migration: the store, and how many of its settings are done. -/
structure MigrationError where
  legacy_qt : Bool
  done : Nat

/-- Both stores after a migration that an exception ends. -/
def interruptedMigration (args : ArgsManager) (qml bitcoin_qt : QSettings V) (mode : MigrationMode)
    (error : MigrationError) : QSettings V × QSettings V :=
  if error.legacy_qt then
    let first := migrateStore api qt args ⟨false, qml⟩ mode
    let second := migrateSettings api qt first.args ⟨true, bitcoin_qt⟩ mode
      ((legacySettings api true).take error.done)
    (first.settings, second.settings)
  else
    let first := migrateSettings api qt args ⟨false, qml⟩ mode
      ((legacySettings api false).take error.done)
    (first.settings, bitcoin_qt)

end Migration

end GuiQml.Settings
