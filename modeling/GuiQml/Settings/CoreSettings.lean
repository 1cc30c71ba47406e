import Mathlib.Algebra.Group.Nat.Defs
import Mathlib.Data.Int.Bitwise
import Mathlib.Data.List.Basic
import Mathlib.Logic.Function.Basic

/-!
# Core settings

The readers and writers of `core_settings.cpp`. What they call of Bitcoin Core and of Qt is a parameter,
and a call that throws is left out.
-/

namespace GuiQml.Settings

abbrev Str := List Char

/-! ## Values -/

/-- A `common::SettingsValue`. A number is kept as its text. -/
inductive SettingsValue
  | null
  | bool (value : Bool)
  | num (text : Str)
  | str (text : Str)
  | other (text : Str)
  deriving DecidableEq

namespace SettingsValue

def isNull (value : SettingsValue) : Bool := value = .null

/-- The value of an integer. -/
def int : Int → SettingsValue
  | .ofNat n => .num (Nat.toDigits 10 n)
  | .negSucc n => .num ('-' :: Nat.toDigits 10 (n + 1))

end SettingsValue

/-- The name of a setting. `prev` appends `-prev`. -/
inductive Name
  | listen | natpmp | server | prune | dbcache | par | maxmempool | proxy | onion | signer | lang
  | spendzeroconfchange | qml_onboarded
  | prev (name : Name)
  | other (name : String)
  deriving DecidableEq

abbrev RwSettings := Name → Option SettingsValue

structure ArgsManager where
  command_line_options : Name → List SettingsValue
  forced_settings : Name → Option SettingsValue
  /-- What the configuration file says under a name, in the section of the chain. -/
  config : Name → SettingsValue
  rw_settings : RwSettings
  /-- Whether there is a settings file. -/
  settings_path : Bool

structure CoreApi where
  isSpace : Char → Bool
  settingToBool : SettingsValue → Option Bool
  settingToInt : SettingsValue → Option Int
  settingToString : SettingsValue → Option Str
  write : SettingsValue → Str
  /-- Whether the location splits, and its port and host. -/
  splitHostPort : Str → Nat → Bool × Nat × Str
  /-- Whether the number of the location makes a valid proxy. -/
  proxyIsValid : Str → Nat → Bool
  isUnixSocketPath : Str → Bool
  DEFAULT_LISTEN : Bool
  DEFAULT_NATPMP : Bool
  DEFAULT_DB_CACHE : Int
  DEFAULT_SCRIPTCHECK_THREADS : Int
  DEFAULT_MAX_MEMPOOL_SIZE_MB : Int
  DEFAULT_SPEND_ZEROCONF_CHANGE : Bool
  CLIENT_VERSION : Int
  ENABLE_WALLET : Bool

/-- What Core documents of its readers. -/
structure CoreApi.Lawful (api : CoreApi) : Prop where
  settingToBool_null : api.settingToBool .null = none
  settingToBool_bool (value : Bool) : api.settingToBool (.bool value) = some value
  settingToInt_null : api.settingToInt .null = none
  settingToInt_num (n : Nat) : n < 2 ^ 63 → api.settingToInt (.num (Nat.toDigits 10 n)) = some n
  settingToInt_str (n : Nat) : n < 2 ^ 63 → api.settingToInt (.str (Nat.toDigits 10 n)) = some n
  settingToString_null : api.settingToString .null = none
  settingToString_false : api.settingToString (.bool false) = some ['0']
  settingToString_str (text : Str) : api.settingToString (.str text) = some text

/-! ## Arguments -/

namespace ArgsManager

variable (args : ArgsManager)

/-- The settings file comes before the configuration file, even with a null. -/
def getPersistentSetting (name : Name) : SettingsValue :=
  (args.rw_settings name).getD (args.config name)

def setRw (name : Name) (value : Option SettingsValue) : ArgsManager :=
  { args with rw_settings := Function.update args.rw_settings name value }

end ArgsManager

section CoreSettings

variable (api : CoreApi) (args : ArgsManager)

/-! ## Kinds of settings -/

def isBoolCoreSetting : Name → Bool
  | .listen | .natpmp | .server => true
  | _ => false

def isIntCoreSetting : Name → Bool
  | .dbcache | .par | .maxmempool | .prune => true
  | _ => false

def isParameterInteractionSetting : Name → Bool
  | .listen | .natpmp | .maxmempool => true
  | _ => false

def isLegacyNumericRwSetting : Name → Bool
  | .dbcache | .par | .prune | .prev .prune => true
  | _ => false

def isOptionalStringCoreSetting : Name → Bool
  | .proxy | .onion | .signer | .lang => true
  | _ => false

def isSessionSetting : Name → Bool
  | .listen | .natpmp | .server | .prune | .proxy | .onion => true
  | _ => false

def onboardingCoreSettingNames : List Name := [.listen, .natpmp, .server, .prune, .proxy, .onion]

/-! ## Text -/

def trimmed (s : Str) : Str :=
  ((s.dropWhile api.isSpace).reverse.dropWhile api.isSpace).reverse

def defaultProxyPort : Nat := 9050

def defaultProxyAddress : Str := "127.0.0.1:9050".toList

def trimTrailingRootDot (host : Str) : Str :=
  if host.getLast? = some '.' then host.dropLast else host

def isDottedNumericHost (host : Str) : Bool :=
  host.all (fun c => c = '.' || c.isDigit) && host.contains '.' && host.any Char.isDigit

/-- The labels of a host name, from the length of the one before and its last character. -/
def validLabels : (label_len : Nat) → (previous : Char) → Str → Bool
  | label_len, previous, [] => 0 < label_len && previous ≠ '-'
  | label_len, previous, c :: rest =>
    if c = '.' then
      if label_len = 0 || previous = '-' then false else validLabels 0 c rest
    else if !c.isAlphanum && c ≠ '-' then false
    else if label_len = 0 && c = '-' then false
    else if 63 < label_len + 1 then false
    else validLabels (label_len + 1) c rest

def isValidHostnameSyntax (host : Str) : Bool :=
  if host.isEmpty || 253 < host.length || host.contains '\x00' then false
  else
    let hostname := trimTrailingRootDot host
    if hostname.isEmpty || isDottedNumericHost hostname then false else validLabels 0 '\x00' hostname

/-- The error of a proxy location, empty for a location that is accepted. -/
def proxyValidationError (location : Str) : String :=
  let value := trimmed api location
  if value.isEmpty then "Proxy location is required."
  else if value.contains '\x00' then "The supplied proxy location is invalid."
  else if value.contains '=' then "Per-network proxy values are not supported in this field."
  else if "unix:".toList.isPrefixOf value then
    if api.isUnixSocketPath value then ""
    else "This Unix socket proxy path is not supported on this platform or is too long."
  else
    let (split, _, host) := api.splitHostPort value defaultProxyPort
    if !split || host.isEmpty then
      "Enter a proxy location as host, host:port, [IPv6], [IPv6]:port, or unix:/path."
    else if api.proxyIsValid value defaultProxyPort then ""
    else if isValidHostnameSyntax host then ""
    else "The supplied proxy location is invalid."

/-! ## Setting values -/

def GB_BYTES : Int := 1000000000

def DEFAULT_PRUNE_TARGET_GB : Int := 2

def pruneMiBToGB (mib : Int) : Int := (mib * 1024 * 1024 + GB_BYTES - 1) / GB_BYTES

def pruneGBToMiB (gb : Int) : Int := gb * GB_BYTES / 1024 / 1024

def pruneEnabled (setting : SettingsValue) : Bool := 1 < (api.settingToInt setting).getD 0

def pruneSizeGBFromSetting (setting : SettingsValue) : Int :=
  let value := (api.settingToInt setting).getD 0
  if 1 < value then pruneMiBToGB value else DEFAULT_PRUNE_TARGET_GB

def pruneSetting (enabled : Bool) (prune_size_gb : Int) : SettingsValue :=
  if enabled then .int (pruneGBToMiB (if prune_size_gb < 1 then 1 else prune_size_gb)) else .int 0

def proxySetting (enabled : Bool) (address : Str) : SettingsValue :=
  if enabled && !(trimmed api address).isEmpty then .str (trimmed api address) else .bool false

def proxyAddressFromSetting (setting : SettingsValue) : Str :=
  let proxy_setting := (api.settingToString setting).getD []
  if proxy_setting = ['0'] then [] else proxy_setting

structure Values where
  prune : Bool := true
  prune_size_gb : Int := 2
  listen : Bool := true
  natpmp : Bool := false
  server : Bool := false
  proxy_enabled : Bool := false
  proxy_address : Str := []
  tor_enabled : Bool := false
  tor_address : Str := []
  deriving DecidableEq

/-- The address of a proxy setting, or of its `-prev` setting where it is disabled. -/
def loadProxyAddress (name : Name) : Str :=
  let setting := proxyAddressFromSetting api (args.getPersistentSetting name)
  if setting.isEmpty then
    (api.settingToString (args.getPersistentSetting name.prev)).getD []
  else setting

def loadPersistentValues : Values where
  listen := (api.settingToBool (args.getPersistentSetting .listen)).getD api.DEFAULT_LISTEN
  natpmp := (api.settingToBool (args.getPersistentSetting .natpmp)).getD api.DEFAULT_NATPMP
  server := (api.settingToBool (args.getPersistentSetting .server)).getD false
  prune := pruneEnabled api (args.getPersistentSetting .prune)
  prune_size_gb :=
    if pruneEnabled api (args.getPersistentSetting .prune) then
      pruneSizeGBFromSetting api (args.getPersistentSetting .prune)
    else pruneSizeGBFromSetting api (args.getPersistentSetting (.prev .prune))
  proxy_enabled := !(proxyAddressFromSetting api (args.getPersistentSetting .proxy)).isEmpty
  proxy_address := loadProxyAddress api args .proxy
  tor_enabled := !(proxyAddressFromSetting api (args.getPersistentSetting .onion)).isEmpty
  tor_address := loadProxyAddress api args .onion

/-! ## Overrides -/

def defaultCoreSettingValue : Name → SettingsValue
  | .listen => .bool api.DEFAULT_LISTEN
  | .natpmp => .bool api.DEFAULT_NATPMP
  | .server => .bool false
  | .prune => .int 0
  | .dbcache => .int (api.DEFAULT_DB_CACHE >>> 20)
  | .par => .int api.DEFAULT_SCRIPTCHECK_THREADS
  | .maxmempool => .int api.DEFAULT_MAX_MEMPOOL_SIZE_MB
  | _ => .null

def isCommandLineOverridden (name : Name) : Bool := !(args.command_line_options name).isEmpty

def canEditCoreSetting (name : Name) : Bool := !isCommandLineOverridden args name

def forcedParameterInteractionValue (name : Name) : SettingsValue :=
  if isParameterInteractionSetting name then (args.forced_settings name).getD .null else .null

/-- Both values are there and equal. -/
def bothEqual {α : Type} [DecidableEq α] (left right : Option α) : Bool :=
  left.isSome && right.isSome && left = right

def settingTextEmpty (text : Option Str) : Bool :=
  text = none || text = some [] || text = some ['0']

def coreSettingValuesEqual (name : Name) (left right : SettingsValue) : Bool :=
  if left.isNull && right.isNull then true
  else if isBoolCoreSetting name then bothEqual (api.settingToBool left) (api.settingToBool right)
  else if isIntCoreSetting name then bothEqual (api.settingToInt left) (api.settingToInt right)
  else if isOptionalStringCoreSetting name then
    if settingTextEmpty (api.settingToString left) && settingTextEmpty (api.settingToString right) then
      true
    else bothEqual (api.settingToString left) (api.settingToString right)
  else api.write left = api.write right

/-- Null where the value is what holds without an override. -/
def guiOverrideValue (name : Name) (value : SettingsValue) : SettingsValue :=
  let forced_value := forcedParameterInteractionValue args name
  if !forced_value.isNull then
    if coreSettingValuesEqual api name value forced_value then .null else value
  else if !(args.config name).isNull then
    if coreSettingValuesEqual api name value (args.config name) then .null else value
  else if coreSettingValuesEqual api name value (defaultCoreSettingValue api name) then .null
  else value

/-! ## Writers -/

/-- Old numeric settings are stored as texts. -/
def legacyCompatibleRwSettingValue (name : Name) : SettingsValue → SettingsValue
  | .num text => if isLegacyNumericRwSetting name then .str text else .num text
  | value => value

def setRwSetting (name : Name) (value : SettingsValue) : ArgsManager :=
  let stored_value := legacyCompatibleRwSettingValue name value
  args.setRw name (if stored_value.isNull then none else some stored_value)

/-- The node stores a value and erases on null. -/
def nodeUpdateRwSetting (name : Name) (value : SettingsValue) : ArgsManager :=
  args.setRw name (if value.isNull then none else some value)

def updateRwSetting (name : Name) (value : SettingsValue) : ArgsManager :=
  nodeUpdateRwSetting args name (legacyCompatibleRwSettingValue name value)

/-- The arguments after the write, and whether it was accepted. -/
def writeCoreSettingOverride (name : Name) (value : SettingsValue) : ArgsManager × Bool :=
  if !canEditCoreSetting args name then (args, false)
  else (setRwSetting args name (guiOverrideValue api args name value), true)

def writePruneSetting (enabled : Bool) (prune_size_gb : Int) : ArgsManager × Bool :=
  if !canEditCoreSetting args .prune then (args, false)
  else if enabled then
    let (args, ok) := writeCoreSettingOverride api args .prune (pruneSetting true prune_size_gb)
    if !ok then (args, false) else (setRwSetting args (.prev .prune) .null, true)
  else
    writeCoreSettingOverride api
      (setRwSetting args (.prev .prune) (pruneSetting true prune_size_gb)) .prune
      (pruneSetting false prune_size_gb)

def writeProxySetting (key : Name) (enabled : Bool) (address : Str) : ArgsManager × Bool :=
  let address := trimmed api address
  if !canEditCoreSetting args key then (args, false)
  else if enabled && proxyValidationError api address ≠ "" then (args, false)
  else if enabled then
    let (args, ok) := writeCoreSettingOverride api args key (proxySetting api true address)
    if !ok then (args, false) else (setRwSetting args key.prev .null, true)
  else
    let args := if address.isEmpty then args else setRwSetting args key.prev (.str address)
    writeCoreSettingOverride api args key (proxySetting api false address)

end CoreSettings

end GuiQml.Settings
