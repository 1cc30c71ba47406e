import GuiQml.Settings.CoreSettings

/-!
# A settings session

`QmlCoreSettings::Session`: its change operations and its two writers. Of a `Change` only whether it was
accepted is kept; the rest of it feeds signals.
-/

namespace GuiQml.Settings

structure Session where
  m_values : Values
  /-- The names whose status says that they cannot be edited. -/
  m_locked : List Name := []
  m_touched_settings : List Name := []

namespace Session

variable (api : CoreApi) (s : Session)

def canEdit (name : Name) : Bool := !s.m_locked.contains name

def isTouched (name : Name) : Bool := s.m_touched_settings.contains name

def markTouched (name : Name) : Session :=
  { s with m_touched_settings := s.m_touched_settings.insert name }

def clearTouched (name : Name) : Session :=
  { s with m_touched_settings := s.m_touched_settings.erase name }

def setTouchedSettings (touched_settings : List Name) : Session :=
  { s with m_touched_settings := touched_settings }

/-! ## Changes -/

/-- A change of one value of the setting `name`, unless it is there already. -/
def changeValue {α : Type} [DecidableEq α] (name : Name) (get : Values → α) (set : α → Values → Values)
    (value : α) : Session × Bool :=
  if !s.canEdit name || value = get s.m_values then (s, false)
  else ({ s.markTouched name with m_values := set value s.m_values }, true)

def changeListen (listen : Bool) : Session × Bool :=
  s.changeValue .listen Values.listen (fun value v => { v with listen := value }) listen

def changeNatpmp (natpmp : Bool) : Session × Bool :=
  s.changeValue .natpmp Values.natpmp (fun value v => { v with natpmp := value }) natpmp

def changeServer (server : Bool) : Session × Bool :=
  s.changeValue .server Values.server (fun value v => { v with server := value }) server

def changePrune (prune : Bool) : Session × Bool :=
  s.changeValue .prune Values.prune (fun value v => { v with prune := value }) prune

def changePruneSizeGB (prune_size_gb : Int) : Session × Bool :=
  if prune_size_gb < 1 then (s, false)
  else s.changeValue .prune Values.prune_size_gb (fun value v => { v with prune_size_gb := value })
    prune_size_gb

/-- The values of one of the two proxies. -/
structure ProxyFields where
  name : Name
  enabled : Values → Bool
  address : Values → Str
  setEnabled : Bool → Values → Values
  setAddress : Str → Values → Values

def proxyFields : ProxyFields where
  name := .proxy
  enabled := Values.proxy_enabled
  address := Values.proxy_address
  setEnabled value v := { v with proxy_enabled := value }
  setAddress value v := { v with proxy_address := value }

def torFields : ProxyFields where
  name := .onion
  enabled := Values.tor_enabled
  address := Values.tor_address
  setEnabled value v := { v with tor_enabled := value }
  setAddress value v := { v with tor_address := value }

/-- Enabling fills in an empty address first, also where it is then refused. -/
def changeEnabled (fields : ProxyFields) (enabled : Bool) : Session × Bool :=
  if !s.canEdit fields.name || enabled = fields.enabled s.m_values then (s, false)
  else
    let values := if enabled && (fields.address s.m_values).isEmpty then
        fields.setAddress defaultProxyAddress s.m_values
      else s.m_values
    if enabled && proxyValidationError api (fields.address values) ≠ "" then
      ({ s with m_values := values }, false)
    else ({ s.markTouched fields.name with m_values := fields.setEnabled enabled values }, true)

def changeLocation (fields : ProxyFields) (location : Str) : Session × Bool :=
  let location := trimmed api location
  if !s.canEdit fields.name || proxyValidationError api location ≠ "" then (s, false)
  else if location = fields.address s.m_values then (s, true)
  else
    ({ s.markTouched fields.name with m_values := fields.setAddress location s.m_values }, true)

def changeProxyEnabled (enabled : Bool) : Session × Bool := s.changeEnabled api proxyFields enabled

def changeTorEnabled (enabled : Bool) : Session × Bool := s.changeEnabled api torFields enabled

def changeProxyLocation (location : Str) : Session × Bool := s.changeLocation api proxyFields location

def changeTorLocation (location : Str) : Session × Bool := s.changeLocation api torFields location

def changePruneRecommendation (prune : Bool) (prune_size_gb : Int) (mark_touched : Bool) : Session :=
  let values := { s.m_values with
    prune
    prune_size_gb := if prune then prune_size_gb else s.m_values.prune_size_gb }
  let s := if mark_touched then s.markTouched .prune else s.clearTouched .prune
  { s with m_values := values }

def applyPreviewValuesPreservingTouched (values : Values) (locked : List Name) : Session :=
  { s with
    m_locked := locked
    m_values :=
      { listen := if s.isTouched .listen then s.m_values.listen else values.listen
        natpmp := if s.isTouched .natpmp then s.m_values.natpmp else values.natpmp
        server := if s.isTouched .server then s.m_values.server else values.server
        prune := if s.isTouched .prune then s.m_values.prune else values.prune
        prune_size_gb :=
          if s.isTouched .prune then s.m_values.prune_size_gb else values.prune_size_gb
        proxy_enabled :=
          if s.isTouched .proxy then s.m_values.proxy_enabled else values.proxy_enabled
        proxy_address :=
          if s.isTouched .proxy then s.m_values.proxy_address else values.proxy_address
        tor_enabled := if s.isTouched .onion then s.m_values.tor_enabled else values.tor_enabled
        tor_address := if s.isTouched .onion then s.m_values.tor_address else values.tor_address } }

/-! ## Writers -/

def settingValue : Name → SettingsValue
  | .listen => .bool s.m_values.listen
  | .natpmp => .bool s.m_values.natpmp
  | .server => .bool s.m_values.server
  | .prune => pruneSetting s.m_values.prune s.m_values.prune_size_gb
  | .proxy => proxySetting api s.m_values.proxy_enabled s.m_values.proxy_address
  | .onion => proxySetting api s.m_values.tor_enabled s.m_values.tor_address
  | _ => .null

def writeToArgs (args : ArgsManager) (name : Name) : ArgsManager × Bool :=
  if !isSessionSetting name then (args, false)
  else match name with
    | .proxy => writeProxySetting api args .proxy s.m_values.proxy_enabled s.m_values.proxy_address
    | .onion => writeProxySetting api args .onion s.m_values.tor_enabled s.m_values.tor_address
    | .prune => writePruneSetting api args s.m_values.prune s.m_values.prune_size_gb
    | name => writeCoreSettingOverride api args name (s.settingValue api name)

/-- The touched settings in order. One that is refused does not stop the others. -/
def writeTouchedToArgs (args : ArgsManager) : ArgsManager × Bool :=
  (onboardingCoreSettingNames.filter s.isTouched).foldl (fun (args, ok) name =>
    let (args, written) := s.writeToArgs api args name
    (args, written && ok)) (args, true)

def writeProxyToNode (args : ArgsManager) (name : Name) (enabled : Bool) (address : Str) :
    ArgsManager × Bool :=
  let address := trimmed api address
  if enabled && proxyValidationError api address ≠ "" then (args, false)
  else if enabled then
    let args := updateRwSetting args name
      (guiOverrideValue api args name (proxySetting api true address))
    (updateRwSetting args name.prev .null, true)
  else
    let args := if address.isEmpty then args else updateRwSetting args name.prev (.str address)
    (updateRwSetting args name (guiOverrideValue api args name (proxySetting api false address)), true)

def writePruneToNode (args : ArgsManager) : ArgsManager × Bool :=
  let size := s.m_values.prune_size_gb
  if s.m_values.prune then
    let args := updateRwSetting args .prune (guiOverrideValue api args .prune (pruneSetting true size))
    (updateRwSetting args (.prev .prune) .null, true)
  else
    let args := updateRwSetting args (.prev .prune) (pruneSetting true size)
    (updateRwSetting args .prune (guiOverrideValue api args .prune (pruneSetting false size)), true)

def writeToNode (args : ArgsManager) (name : Name) : ArgsManager × Bool :=
  if !isSessionSetting name || !canEditCoreSetting args name then (args, false)
  else match name with
    | .proxy => writeProxyToNode api args .proxy s.m_values.proxy_enabled s.m_values.proxy_address
    | .onion => writeProxyToNode api args .onion s.m_values.tor_enabled s.m_values.tor_address
    | .prune => s.writePruneToNode api args
    | name =>
      (updateRwSetting args name (guiOverrideValue api args name (s.settingValue api name)), true)

end Session

end GuiQml.Settings
