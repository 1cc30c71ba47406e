import GuiQml.Settings.Session
import Mathlib.Data.List.DropRight

/-!
# Writing a setting and loading it again

What `writeToArgs` stores and `LoadPersistentValues` reads. The reader takes the location `0` for a
disabled proxy, and it does not trim.
-/

namespace GuiQml.Settings

/-! ## Text and numbers -/

theorem trimmed_trimmed (api : CoreApi) (s : Str) : trimmed api (trimmed api s) = trimmed api s := by
  have hprefix : trimmed api s <+: s.dropWhile api.isSpace :=
    List.rdropWhile_prefix (p := api.isSpace) (s.dropWhile api.isSpace)
  have hdrop : (trimmed api s).dropWhile api.isSpace = trimmed api s := by
    cases ht : trimmed api s with
    | nil => rfl
    | cons c rest =>
      rw [ht] at hprefix
      obtain ⟨rest', hrest⟩ := hprefix
      have hc : api.isSpace c = false := by
        have hhead := List.head?_dropWhile_not api.isSpace s
        rw [← hrest] at hhead
        simpa using hhead
      rw [List.dropWhile_cons_of_neg (by simpa using hc)]
  calc trimmed api (trimmed api s)
      = ((trimmed api s).dropWhile api.isSpace).rdropWhile api.isSpace := rfl
    _ = (trimmed api s).rdropWhile api.isSpace := by rw [hdrop]
    _ = trimmed api s := List.rdropWhile_idempotent api.isSpace _

theorem pruneMiBToGB_pruneGBToMiB (gb : Int) : pruneMiBToGB (pruneGBToMiB gb) = gb := by
  unfold pruneMiBToGB pruneGBToMiB GB_BYTES
  omega

theorem one_lt_pruneGBToMiB {gb : Int} (h : 1 ≤ gb) : 1 < pruneGBToMiB gb := by
  unfold pruneGBToMiB GB_BYTES
  omega

theorem pruneGBToMiB_lt {gb : Int} (h : gb ≤ 2147483647) :
    pruneGBToMiB gb < 9223372036854775808 := by
  unfold pruneGBToMiB GB_BYTES
  omega

theorem Name.prev_ne (name : Name) : name.prev ≠ name := by
  intro h
  have := congrArg sizeOf h
  simp at this

/-! ## Reading an override -/

section Overrides

variable {api : CoreApi} {args : ArgsManager} {name : Name} {value : SettingsValue}

@[simp] theorem setRw_config (value : Option SettingsValue) :
    (args.setRw name value).config = args.config := rfl

@[simp] theorem setRw_self (value : Option SettingsValue) :
    (args.setRw name value).rw_settings name = value := by
  simp [ArgsManager.setRw]

theorem setRw_of_ne {other : Name} (h : other ≠ name) (value : Option SettingsValue) :
    (args.setRw name value).rw_settings other = args.rw_settings other := by
  simp [ArgsManager.setRw, h]

theorem getPersistentSetting_setRw_of_ne {other : Name} (h : other ≠ name)
    (value : Option SettingsValue) :
    (args.setRw name value).getPersistentSetting other = args.getPersistentSetting other := by
  unfold ArgsManager.getPersistentSetting
  rw [setRw_of_ne h, setRw_config]

theorem getPersistentSetting_setRwSetting (value : SettingsValue) :
    (setRwSetting args name value).getPersistentSetting name =
      if (legacyCompatibleRwSettingValue name value).isNull then args.config name
      else legacyCompatibleRwSettingValue name value := by
  unfold ArgsManager.getPersistentSetting setRwSetting
  dsimp only
  rw [setRw_self]
  split <;> rfl

@[simp] theorem canEditCoreSetting_setRwSetting (other : Name) (value : SettingsValue) :
    canEditCoreSetting (setRwSetting args other value) name = canEditCoreSetting args name := rfl

theorem isNull_legacyCompatible (name : Name) (value : SettingsValue) :
    (legacyCompatibleRwSettingValue name value).isNull = value.isNull := by
  cases value with
  | num text =>
    dsimp only [legacyCompatibleRwSettingValue]
    split <;> rfl
  | null | bool | str | other => rfl

theorem override_reads (R : SettingsValue → Prop) (hforced : args.forced_settings name = none)
    (hvalue : value.isNull = false) (hstored : R (legacyCompatibleRwSettingValue name value))
    (hconfig : args.config name ≠ .null →
      coreSettingValuesEqual api name value (args.config name) = true → R (args.config name))
    (hdefault : args.config name = .null →
      coreSettingValuesEqual api name value (defaultCoreSettingValue api name) = true → R .null) :
    R ((setRwSetting args name (guiOverrideValue api args name value)).getPersistentSetting name) := by
  have hcompat : (legacyCompatibleRwSettingValue name value).isNull = false := by
    rw [isNull_legacyCompatible, hvalue]
  have hforced' : (forcedParameterInteractionValue args name).isNull = true := by
    unfold forcedParameterInteractionValue
    rw [hforced]
    split <;> rfl
  rw [getPersistentSetting_setRwSetting]
  unfold guiOverrideValue
  simp only [hforced', Bool.not_true, Bool.false_eq_true, if_false]
  by_cases hc : args.config name = .null
  · have hc' : (args.config name).isNull = true := by simp [SettingsValue.isNull, hc]
    simp only [hc', Bool.not_true, Bool.false_eq_true, if_false]
    split
    · rename_i heq
      rw [hc]
      exact hdefault hc heq
    · rw [if_neg (by simp [hcompat])]
      exact hstored
  · have hc' : (args.config name).isNull = false := by simp [SettingsValue.isNull, hc]
    simp only [hc', Bool.not_false, if_true]
    split
    · rename_i heq
      exact hconfig hc heq
    · rw [if_neg (by simp [hcompat])]
      exact hstored

theorem bothEqual_iff {α : Type} [DecidableEq α] {left right : Option α} :
    bothEqual left right = true ↔ ∃ x, left = some x ∧ right = some x := by
  cases left <;> cases right <;> simp [bothEqual, eq_comm]

/-! ## Flags -/

theorem flag_reads_back (h : api.Lawful) (hkind : isBoolCoreSetting name = true)
    (hforced : args.forced_settings name = none) {flag : Bool} {default : Bool}
    (hdefault : defaultCoreSettingValue api name = .bool default) :
    (api.settingToBool ((setRwSetting args name
      (guiOverrideValue api args name (.bool flag))).getPersistentSetting name)).getD default =
      flag := by
  have hequal : ∀ other, coreSettingValuesEqual api name (.bool flag) other = true →
      api.settingToBool other = some flag := by
    intro other heq
    unfold coreSettingValuesEqual at heq
    simp only [SettingsValue.isNull, hkind, if_true] at heq
    rw [if_neg (by simp), bothEqual_iff] at heq
    obtain ⟨x, hleft, hright⟩ := heq
    rw [h.settingToBool_bool] at hleft
    rw [hright, ← hleft]
  refine override_reads (fun x => (api.settingToBool x).getD default = flag) hforced rfl ?_ ?_ ?_
  · show (api.settingToBool (.bool flag)).getD default = flag
    rw [h.settingToBool_bool]
    rfl
  · intro _ heq
    rw [hequal _ heq]
    rfl
  · intro _ heq
    rw [hdefault] at heq
    have hflag := hequal _ heq
    rw [h.settingToBool_bool] at hflag
    rw [h.settingToBool_null]
    exact Option.some.inj hflag

/-! ## The prune size -/

variable (name) in
theorem settingToInt_stored (h : api.Lawful) {n : Int} (hpos : 0 ≤ n)
    (hlt : n < 9223372036854775808) : api.settingToInt (.int n) = some n ∧
      api.settingToInt (legacyCompatibleRwSettingValue name (.int n)) = some n := by
  obtain ⟨m, rfl⟩ := Int.eq_ofNat_of_zero_le hpos
  have hm : m < 2 ^ 63 := by omega
  refine ⟨h.settingToInt_num m hm, ?_⟩
  show api.settingToInt (if isLegacyNumericRwSetting name then .str (Nat.toDigits 10 m)
    else .num (Nat.toDigits 10 m)) = some (m : Int)
  split
  · exact h.settingToInt_str m hm
  · exact h.settingToInt_num m hm

theorem isNull_int (n : Int) : (SettingsValue.int n).isNull = false := by
  cases n <;> rfl

theorem prune_reads_back (h : api.Lawful) (hforced : args.forced_settings .prune = none) {n : Int}
    (hpos : 0 ≤ n) (hlt : n < 9223372036854775808) :
    (api.settingToInt ((setRwSetting args .prune
      (guiOverrideValue api args .prune (.int n))).getPersistentSetting .prune)).getD 0 = n := by
  have hequal : ∀ other, coreSettingValuesEqual api .prune (.int n) other = true →
      api.settingToInt other = some n := by
    intro other heq
    unfold coreSettingValuesEqual at heq
    rw [if_neg (by simp [isNull_int])] at heq
    simp only [isBoolCoreSetting, isIntCoreSetting, Bool.false_eq_true, if_false, if_true] at heq
    obtain ⟨x, hleft, hright⟩ := bothEqual_iff.mp heq
    rw [(settingToInt_stored .prune h hpos hlt).1] at hleft
    rw [hright, ← hleft]
  refine override_reads (fun x => (api.settingToInt x).getD 0 = n) hforced (isNull_int n) ?_ ?_ ?_
  · rw [(settingToInt_stored .prune h hpos hlt).2]
    rfl
  · intro _ heq
    rw [hequal _ heq]
    rfl
  · intro _ heq
    have hzero := hequal _ heq
    show (api.settingToInt .null).getD 0 = n
    rw [show defaultCoreSettingValue api .prune = .int 0 from rfl,
      (settingToInt_stored .prune h (by omega) (by omega)).1] at hzero
    rw [h.settingToInt_null]
    exact Option.some.inj hzero

/-! ## The location of a proxy -/

/-- The location that the reader finds, with `0` for none. -/
def readLocation (location : Str) : Str := if location = ['0'] then [] else location

theorem proxyAddressFromSetting_of_empty {setting : SettingsValue}
    (h : settingTextEmpty (api.settingToString setting) = true) :
    proxyAddressFromSetting api setting = [] := by
  unfold settingTextEmpty at h
  simp only [Bool.or_eq_true, decide_eq_true_eq] at h
  unfold proxyAddressFromSetting
  rcases h with (h | h) | h
  · rw [h]
    rfl
  · rw [h]
    rfl
  · rw [h]
    rfl

theorem proxyAddressFromSetting_of_some {setting : SettingsValue} {text : Str}
    (h : api.settingToString setting = some text) :
    proxyAddressFromSetting api setting = readLocation text := by
  unfold proxyAddressFromSetting
  rw [h]
  rfl

theorem proxy_reads_back (hkind : isOptionalStringCoreSetting name = true)
    (hforced : args.forced_settings name = none) {text : Str}
    (hvalue : value.isNull = false) (htext : api.settingToString value = some text)
    (hcompat : legacyCompatibleRwSettingValue name value = value) :
    proxyAddressFromSetting api ((setRwSetting args name
      (guiOverrideValue api args name value)).getPersistentSetting name) = readLocation text := by
  have hequal : ∀ other, coreSettingValuesEqual api name value other = true →
      proxyAddressFromSetting api other = readLocation text := by
    intro other heq
    have hbool : isBoolCoreSetting name = false := by
      cases name <;> first | rfl | cases hkind
    have hint : isIntCoreSetting name = false := by
      cases name <;> first | rfl | cases hkind
    unfold coreSettingValuesEqual at heq
    rw [if_neg (by simp [hvalue])] at heq
    simp only [hbool, hint, hkind, Bool.false_eq_true, if_false, if_true] at heq
    split at heq
    · rename_i hempty
      obtain ⟨hleft, hright⟩ := Bool.and_eq_true_iff.mp hempty
      rw [proxyAddressFromSetting_of_empty hright,
        ← proxyAddressFromSetting_of_empty hleft, proxyAddressFromSetting_of_some htext]
    · obtain ⟨x, hleft, hright⟩ := bothEqual_iff.mp heq
      rw [htext] at hleft
      rw [proxyAddressFromSetting_of_some hright, ← Option.some.inj hleft]
  refine override_reads (fun x => proxyAddressFromSetting api x = readLocation text) hforced hvalue
    ?_ ?_ ?_
  · rw [hcompat]
    exact proxyAddressFromSetting_of_some htext
  · intro _ heq
    exact hequal _ heq
  · intro _ heq
    have hnull : defaultCoreSettingValue api name = .null := by
      cases name <;> first | rfl | cases hkind
    rw [hnull] at heq
    exact hequal _ heq

end Overrides

/-! ## Each setting -/

/-- The two sets of values agree on a setting. -/
def SameSetting : Name → Values → Values → Prop
  | .listen, a, b => a.listen = b.listen
  | .natpmp, a, b => a.natpmp = b.natpmp
  | .server, a, b => a.server = b.server
  | .prune, a, b => a.prune = b.prune ∧ a.prune_size_gb = b.prune_size_gb
  | .proxy, a, b => a.proxy_enabled = b.proxy_enabled ∧ a.proxy_address = b.proxy_address
  | .onion, a, b => a.tor_enabled = b.tor_enabled ∧ a.tor_address = b.tor_address
  | _, _, _ => True

/-- A location that is accepted is trimmed and is not `0`. Of a disabled proxy, it is trimmed, or it is
blank and the one that is there already. -/
def ProxyRepresentable (api : CoreApi) (args : ArgsManager) (key : Name) (enabled : Bool)
    (address : Str) : Prop :=
  if enabled then
    proxyValidationError api (trimmed api address) = "" →
      trimmed api address = address ∧ address ≠ ['0']
  else if trimmed api address = [] then
    (api.settingToString (args.getPersistentSetting key.prev)).getD [] = address
  else trimmed api address = address

def Representable (api : CoreApi) (args : ArgsManager) (v : Values) : Name → Prop
  | .prune => 1 ≤ v.prune_size_gb
  | .proxy => ProxyRepresentable api args .proxy v.proxy_enabled v.proxy_address
  | .onion => ProxyRepresentable api args .onion v.tor_enabled v.tor_address
  | _ => True

section Settings

variable {api : CoreApi} {args : ArgsManager}

theorem canEdit_of_nil {name : Name} (h : args.command_line_options name = []) :
    canEditCoreSetting args name = true := by
  simp [canEditCoreSetting, isCommandLineOverridden, h]

theorem trimmed_eq_nil_of_valid {address : Str} (h : trimmed api address = []) :
    proxyValidationError api (trimmed api address) ≠ "" := by
  unfold proxyValidationError
  rw [trimmed_trimmed, h]
  simp

theorem enabled_round_trip {key : Name} (hkind : isOptionalStringCoreSetting key = true)
    (h : api.Lawful) (hforced : args.forced_settings key = none) {address : Str}
    (hne : trimmed api address ≠ []) :
    let args' := setRwSetting (setRwSetting args key
      (guiOverrideValue api args key (proxySetting api true (trimmed api address)))) key.prev .null
    (!(proxyAddressFromSetting api (args'.getPersistentSetting key)).isEmpty) = true ∧
        loadProxyAddress api args' key = address ↔
      trimmed api address = address ∧ address ≠ ['0'] := by
  intro args'
  have hsetting : proxySetting api true (trimmed api address) = .str (trimmed api address) := by
    unfold proxySetting
    rw [trimmed_trimmed]
    simp [hne]
  have hread : proxyAddressFromSetting api (args'.getPersistentSetting key) =
      readLocation (trimmed api address) := by
    rw [show args'.getPersistentSetting key = _ from
      getPersistentSetting_setRw_of_ne (Name.prev_ne key).symm _, hsetting]
    exact proxy_reads_back hkind hforced rfl (h.settingToString_str _) rfl
  unfold loadProxyAddress
  rw [hread]
  unfold readLocation
  by_cases hzero : trimmed api address = ['0']
  · rw [if_pos hzero]
    refine ⟨fun hboth => by simp at hboth, fun hboth => ?_⟩
    exact absurd (hboth.1 ▸ hzero) hboth.2
  · rw [if_neg hzero]
    have hisEmpty : (trimmed api address).isEmpty = false := by simpa using hne
    simp only [hisEmpty, Bool.not_false, Bool.false_eq_true, if_false, true_and]
    refine ⟨fun heq => ⟨heq, fun h0 => hzero (heq.trans h0)⟩, fun hboth => hboth.1⟩

theorem isNull_proxySetting (enabled : Bool) (address : Str) :
    (proxySetting api enabled address).isNull = false := by
  unfold proxySetting
  split <;> rfl

theorem disabled_reads {key : Name} (hkind : isOptionalStringCoreSetting key = true) (h : api.Lawful)
    (hforced : args.forced_settings key = none) (address : Str) :
    let args' := setRwSetting args key (guiOverrideValue api args key (proxySetting api false address))
    (!(proxyAddressFromSetting api (args'.getPersistentSetting key)).isEmpty) = false ∧
      loadProxyAddress api args' key =
        (api.settingToString (args.getPersistentSetting key.prev)).getD [] := by
  intro args'
  have hread : proxyAddressFromSetting api (args'.getPersistentSetting key) = [] :=
    proxy_reads_back hkind hforced rfl h.settingToString_false rfl
  unfold loadProxyAddress
  rw [hread]
  refine ⟨rfl, ?_⟩
  rw [show args'.getPersistentSetting key.prev = _ from
    getPersistentSetting_setRw_of_ne (Name.prev_ne key) _]
  rfl

theorem proxy_round_trip {key : Name} (hkind : isOptionalStringCoreSetting key = true)
    (h : api.Lawful) (hedit : args.command_line_options key = [])
    (hforced : args.forced_settings key = none) (enabled : Bool) (address : Str) :
    let written := writeProxySetting api args key enabled address
    (written.2 = true →
      (!(proxyAddressFromSetting api (written.1.getPersistentSetting key)).isEmpty) = enabled ∧
        loadProxyAddress api written.1 key = address) ↔
      ProxyRepresentable api args key enabled address := by
  intro written
  have hcan := canEdit_of_nil hedit
  cases enabled with
  | true =>
    unfold ProxyRepresentable
    rw [if_pos rfl]
    by_cases hvalid : proxyValidationError api (trimmed api address) = ""
    · have hne : trimmed api address ≠ [] := fun hnil => trimmed_eq_nil_of_valid hnil hvalid
      have hwritten : written = (setRwSetting (setRwSetting args key (guiOverrideValue api args key
          (proxySetting api true (trimmed api address)))) key.prev .null, true) := by
        simp [written, writeProxySetting, writeCoreSettingOverride, hcan, hvalid]
      rw [hwritten]
      simpa [hvalid] using enabled_round_trip hkind h hforced hne
    · have hwritten : written = (args, false) := by
        simp [written, writeProxySetting, hcan, hvalid]
      simp [hwritten, hvalid]
  | false =>
    unfold ProxyRepresentable
    rw [if_neg (by simp)]
    by_cases hblank : trimmed api address = []
    · have hwritten : written = (setRwSetting args key (guiOverrideValue api args key
          (proxySetting api false (trimmed api address))), true) := by
        simp [written, writeProxySetting, writeCoreSettingOverride, hcan, hblank]
      obtain ⟨hoff, haddress⟩ := disabled_reads hkind h hforced (trimmed api address)
      rw [hwritten, if_pos hblank]
      dsimp only
      rw [hoff, haddress]
      simp
    · have hcan' : canEditCoreSetting (setRwSetting args key.prev (.str (trimmed api address))) key =
          true := hcan
      have hwritten : written = (setRwSetting (setRwSetting args key.prev (.str (trimmed api address)))
          key (guiOverrideValue api (setRwSetting args key.prev (.str (trimmed api address))) key
            (proxySetting api false (trimmed api address))), true) := by
        simp [written, writeProxySetting, writeCoreSettingOverride, hcan, hblank]
      obtain ⟨hoff, haddress⟩ := @disabled_reads api
        (setRwSetting args key.prev (.str (trimmed api address))) key hkind h hforced
        (trimmed api address)
      rw [hwritten, if_neg hblank]
      dsimp only
      rw [hoff, haddress, getPersistentSetting_setRwSetting]
      simp [legacyCompatibleRwSettingValue, SettingsValue.isNull, h.settingToString_str]

/-- A size is written as at least 1 GB. -/
def storedSize (prune_size_gb : Int) : Int := if prune_size_gb < 1 then 1 else prune_size_gb

theorem storedSize_pos (prune_size_gb : Int) : 1 ≤ storedSize prune_size_gb := by
  unfold storedSize
  split <;> omega

theorem storedSize_eq_iff {prune_size_gb : Int} :
    storedSize prune_size_gb = prune_size_gb ↔ 1 ≤ prune_size_gb := by
  unfold storedSize
  split <;> omega

theorem pruneEnabled_of_int {setting : SettingsValue} {gb : Int} (hgb : 1 ≤ gb)
    (h : (api.settingToInt setting).getD 0 = pruneGBToMiB gb) :
    pruneEnabled api setting = true ∧ pruneSizeGBFromSetting api setting = gb := by
  have hone := one_lt_pruneGBToMiB hgb
  unfold pruneEnabled pruneSizeGBFromSetting
  rw [h]
  dsimp only
  rw [if_pos hone, pruneMiBToGB_pruneGBToMiB]
  exact ⟨decide_eq_true hone, rfl⟩

theorem prune_round_trip (h : api.Lawful) (hedit : args.command_line_options .prune = [])
    (hforced : args.forced_settings .prune = none) (enabled : Bool) {prune_size_gb : Int}
    (hsize : prune_size_gb ≤ 2147483647) :
    let written := writePruneSetting api args enabled prune_size_gb
    written.2 = true ∧
      ((loadPersistentValues api written.1).prune = enabled ∧
        (loadPersistentValues api written.1).prune_size_gb = prune_size_gb ↔ 1 ≤ prune_size_gb) := by
  intro written
  have hcan := canEdit_of_nil hedit
  have hpos := storedSize_pos prune_size_gb
  have hmib : 0 ≤ pruneGBToMiB (storedSize prune_size_gb) := by
    have := one_lt_pruneGBToMiB hpos
    omega
  have hlt : pruneGBToMiB (storedSize prune_size_gb) < 9223372036854775808 := by
    refine pruneGBToMiB_lt ?_
    unfold storedSize
    split <;> omega
  cases enabled with
  | true =>
    have hwritten : written = (setRwSetting (setRwSetting args .prune (guiOverrideValue api args .prune
        (.int (pruneGBToMiB (storedSize prune_size_gb))))) (.prev .prune) .null, true) := by
      simp [written, writePruneSetting, writeCoreSettingOverride, hcan, pruneSetting, storedSize]
    refine ⟨by rw [hwritten], ?_⟩
    have hread : (api.settingToInt (written.1.getPersistentSetting .prune)).getD 0 =
        pruneGBToMiB (storedSize prune_size_gb) := by
      rw [hwritten]
      exact prune_reads_back h hforced hmib hlt
    obtain ⟨hon, hgb⟩ := pruneEnabled_of_int hpos hread
    simp only [loadPersistentValues, hon, hgb, if_true, true_and]
    exact storedSize_eq_iff
  | false =>
    have hwritten : written = (setRwSetting (setRwSetting args (.prev .prune)
        (.int (pruneGBToMiB (storedSize prune_size_gb)))) .prune (guiOverrideValue api
          (setRwSetting args (.prev .prune) (.int (pruneGBToMiB (storedSize prune_size_gb)))) .prune
            (.int 0)), true) := by
      simp [written, writePruneSetting, writeCoreSettingOverride, hcan, pruneSetting, storedSize]
    refine ⟨by rw [hwritten], ?_⟩
    have hread : (api.settingToInt (written.1.getPersistentSetting .prune)).getD 0 = 0 := by
      rw [hwritten]
      exact prune_reads_back h hforced (by omega) (by omega)
    have hprev : (api.settingToInt (written.1.getPersistentSetting (.prev .prune))).getD 0 =
        pruneGBToMiB (storedSize prune_size_gb) := by
      rw [hwritten]
      rw [show (setRwSetting _ .prune _).getPersistentSetting (.prev .prune) = _ from
        getPersistentSetting_setRw_of_ne (Name.prev_ne .prune) _, getPersistentSetting_setRwSetting]
      rw [if_neg (by simp [isNull_legacyCompatible, isNull_int]),
        (settingToInt_stored (.prev .prune) h hmib hlt).2]
      rfl
    have hoff : pruneEnabled api (written.1.getPersistentSetting .prune) = false := by
      unfold pruneEnabled
      rw [hread]
      rfl
    obtain ⟨-, hgb⟩ := pruneEnabled_of_int hpos hprev
    simp only [loadPersistentValues, hoff, hgb, Bool.false_eq_true, if_false, true_and]
    exact storedSize_eq_iff

/-- The node's writer does what the writer of the arguments does. -/
theorem updateRwSetting_eq (args : ArgsManager) (name : Name) (value : SettingsValue) :
    updateRwSetting args name value = setRwSetting args name value := rfl

theorem guiOverrideValue_setRwSetting (name other : Name) (value value' : SettingsValue) :
    guiOverrideValue api (setRwSetting args other value') name value =
      guiOverrideValue api args name value := rfl

theorem writeProxyToNode_eq {key : Name} (hcan : canEditCoreSetting args key = true)
    (enabled : Bool) (address : Str) :
    Session.writeProxyToNode api args key enabled address =
      writeProxySetting api args key enabled address := by
  unfold Session.writeProxyToNode writeProxySetting
  cases enabled with
  | true =>
    by_cases hvalid : proxyValidationError api (trimmed api address) = ""
    · simp [hcan, hvalid, writeCoreSettingOverride, updateRwSetting_eq]
    · simp [hcan, hvalid]
  | false =>
    by_cases hblank : trimmed api address = []
    · simp [hcan, hblank, writeCoreSettingOverride, updateRwSetting_eq]
    · simp [hcan, hblank, writeCoreSettingOverride, updateRwSetting_eq]

theorem writePruneToNode_eq (session : Session) (hcan : canEditCoreSetting args .prune = true) :
    session.writePruneToNode api args =
      writePruneSetting api args session.m_values.prune session.m_values.prune_size_gb := by
  unfold Session.writePruneToNode writePruneSetting
  cases session.m_values.prune with
  | true => simp [hcan, writeCoreSettingOverride, updateRwSetting_eq]
  | false => simp [hcan, writeCoreSettingOverride, updateRwSetting_eq]

theorem writeToNode_eq (session : Session) {name : Name}
    (hedit : args.command_line_options name = []) :
    session.writeToNode api args name = session.writeToArgs api args name := by
  have hcan := canEdit_of_nil hedit
  unfold Session.writeToNode Session.writeToArgs
  cases name with
  | proxy => simp [isSessionSetting, hcan, writeProxyToNode_eq]
  | onion => simp [isSessionSetting, hcan, writeProxyToNode_eq]
  | prune => simp [isSessionSetting, hcan, writePruneToNode_eq]
  | listen | natpmp | server =>
    simp [isSessionSetting, hcan, writeCoreSettingOverride, updateRwSetting_eq]
  | _ => simp [isSessionSetting]

theorem writeToArgs_flag {session : Session} {name : Name} {flag : Bool}
    (hkind : isBoolCoreSetting name = true) (hvalue : session.settingValue api name = .bool flag)
    (hcan : canEditCoreSetting args name = true) :
    session.writeToArgs api args name =
      (setRwSetting args name (guiOverrideValue api args name (.bool flag)), true) := by
  cases name with
  | listen | natpmp | server =>
    simp [Session.writeToArgs, isSessionSetting, writeCoreSettingOverride, hcan, hvalue]
  | _ => cases hkind

/-- Where a write is accepted, loading gives back the session's values of the setting, and the node's
writer agrees, exactly when the values are such that the two keys can hold them. -/
theorem writes_read_back_iff (h : api.Lawful) (hedit : ∀ name, args.command_line_options name = [])
    (hforced : ∀ name, args.forced_settings name = none) (session : Session)
    (hsize : session.m_values.prune_size_gb ≤ 2147483647) (name : Name) :
    ((session.writeToArgs api args name).2 = true →
        SameSetting name (loadPersistentValues api (session.writeToArgs api args name).1)
          session.m_values) ∧
      session.writeToNode api args name = session.writeToArgs api args name ↔
    Representable api args session.m_values name := by
  rw [and_iff_left (writeToNode_eq session (hedit name))]
  have hcan := canEdit_of_nil (hedit name)
  cases name with
  | listen =>
    refine ⟨fun _ => trivial, fun _ _ => ?_⟩
    rw [writeToArgs_flag rfl rfl hcan]
    exact flag_reads_back h rfl (hforced .listen) rfl
  | natpmp =>
    refine ⟨fun _ => trivial, fun _ _ => ?_⟩
    rw [writeToArgs_flag rfl rfl hcan]
    exact flag_reads_back h rfl (hforced .natpmp) rfl
  | server =>
    refine ⟨fun _ => trivial, fun _ _ => ?_⟩
    rw [writeToArgs_flag rfl rfl hcan]
    exact flag_reads_back h rfl (hforced .server) rfl
  | prune =>
    obtain ⟨haccepted, hiff⟩ := prune_round_trip h (hedit .prune) (hforced .prune)
      session.m_values.prune hsize
    exact ⟨fun hread => hiff.mp (hread haccepted), fun hsize _ => hiff.mpr hsize⟩
  | proxy => exact proxy_round_trip rfl h (hedit .proxy) (hforced .proxy) _ _
  | onion => exact proxy_round_trip rfl h (hedit .onion) (hforced .onion) _ _
  | _ => exact ⟨fun _ => trivial, fun _ _ => trivial⟩

end Settings

/-! ## The location 0 -/

/-- Core, as far as short texts go. -/
def plainCore : CoreApi where
  isSpace c := c = ' '
  settingToBool
    | .null | .other _ => none
    | .bool value => some value
    | .num text | .str text => some (text.isEmpty || Nat.ofDigitChars 10 text 0 ≠ 0)
  settingToInt
    | .null | .other _ => none
    | .bool value => some value.toNat
    | .num text | .str text => some (Nat.ofDigitChars 10 text 0)
  settingToString
    | .null | .other _ => none
    | .bool value => some (if value then ['1'] else ['0'])
    | .num text | .str text => some text
  write
    | .null => "null".toList
    | .bool value => (if value then "true" else "false").toList
    | .num text | .other text => text
    | .str text => '"' :: text ++ ['"']
  splitHostPort value port :=
    if value = defaultProxyAddress then (true, 9050, "127.0.0.1".toList) else (true, port, value)
  proxyIsValid value _ := value = defaultProxyAddress
  isUnixSocketPath _ := false
  DEFAULT_LISTEN := true
  DEFAULT_NATPMP := true
  DEFAULT_DB_CACHE := 450 * 1024 * 1024
  DEFAULT_SCRIPTCHECK_THREADS := 0
  DEFAULT_MAX_MEMPOOL_SIZE_MB := 300
  DEFAULT_SPEND_ZEROCONF_CHANGE := true
  CLIENT_VERSION := 300000
  ENABLE_WALLET := true

theorem plainCore_lawful : plainCore.Lawful where
  settingToBool_null := rfl
  settingToBool_bool _ := rfl
  settingToInt_null := rfl
  settingToInt_num n _ := by
    show some ((Nat.ofDigitChars 10 (Nat.toDigits 10 n) 0 : Nat) : Int) = some (n : Int)
    rw [Nat.ofDigitChars_ten_toDigits]
  settingToInt_str n _ := by
    show some ((Nat.ofDigitChars 10 (Nat.toDigits 10 n) 0 : Nat) : Int) = some (n : Int)
    rw [Nat.ofDigitChars_ten_toDigits]
  settingToString_null := rfl
  settingToString_false := rfl
  settingToString_str _ := rfl

/-- No options, and nothing configured or saved. -/
def emptyArgs : ArgsManager where
  command_line_options _ := []
  forced_settings _ := none
  config _ := .null
  rw_settings _ := none
  settings_path := true

def emptySession : Session := { m_values := loadPersistentValues plainCore emptyArgs }

theorem writes_read_back_prune :
    ((emptySession.writeToArgs plainCore emptyArgs .prune).2 = true →
        SameSetting .prune (loadPersistentValues plainCore
          (emptySession.writeToArgs plainCore emptyArgs .prune).1) emptySession.m_values) ∧
      emptySession.writeToNode plainCore emptyArgs .prune =
        emptySession.writeToArgs plainCore emptyArgs .prune ↔
    1 ≤ emptySession.m_values.prune_size_gb :=
  writes_read_back_iff plainCore_lawful (fun _ => rfl) (fun _ => rfl) emptySession (by decide) .prune

/-- The location `0` is accepted, enabled and written, and loads as a disabled proxy. -/
theorem written_proxy_loads_disabled :
    let (located, ok) := emptySession.changeProxyLocation plainCore ['0']
    let (session, ok') := located.changeProxyEnabled plainCore true
    let (args, ok'') := session.writeToArgs plainCore emptyArgs .proxy
    (ok && ok' && ok'') = true ∧ session.m_values.proxy_enabled = true ∧
      (loadPersistentValues plainCore args).proxy_enabled = false := by
  decide +kernel

end GuiQml.Settings
