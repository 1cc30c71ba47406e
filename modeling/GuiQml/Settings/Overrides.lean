import GuiQml.Lib.Int64
import GuiQml.Settings.RoundTrip

/-!
# What an override leaves

`WriteCoreSettingOverride` stores a value only where it differs from what holds without it. Read back over
the configuration file, it is what was asked for, but for a signer that is cleared: a null erases, and a
signer that is configured comes back.
-/

namespace GuiQml.Settings

/-- Core reads an integer from its number and from the text of it. -/
structure CoreApi.ReadsIntegers (api : CoreApi) : Prop where
  num (n : Int) : Int64.Fits n → api.settingToInt (.int n) = some n
  str (n : Int) (text : Str) : Int64.Fits n → .int n = SettingsValue.num text →
    api.settingToInt (.str text) = some n

section

variable (api : CoreApi) (args : ArgsManager)

/-- What a setting is without an override. -/
def givenValue (name : Name) : SettingsValue :=
  if (args.config name).isNull then defaultCoreSettingValue api name else args.config name

/-- What a setting is, with the default where nothing is saved or configured. -/
def readBack (name : Name) : SettingsValue :=
  if (args.getPersistentSetting name).isNull then defaultCoreSettingValue api name
  else args.getPersistentSetting name

/-- A value of an `int`. -/
def IsInt (n : Int) : Prop := -2147483648 ≤ n ∧ n ≤ 2147483647

/-- The values that the editor of a setting asks for. Only core settings have one. -/
def EditorValue : Name → SettingsValue → Prop
  | .listen, value | .natpmp, value | .server, value => ∃ flag, value = .bool flag
  | .prune, value => ∃ enabled prune_size_gb, IsInt prune_size_gb ∧ value = pruneSetting enabled prune_size_gb
  | .dbcache, value | .par, value | .maxmempool, value => ∃ n, IsInt n ∧ value = .int n
  | .proxy, value | .onion, value => ∃ enabled address, value = proxySetting api enabled address
  | .signer, value => value = .null ∨ ∃ path, value = .str path
  | .lang, value => ∃ language, value = .str language
  | _, _ => False

/-- A write that is accepted is read back, and leaves an entry exactly where there is something to override. -/
def OverrideRight (name : Name) (value : SettingsValue) : Prop :=
  ∀ args', writeCoreSettingOverride api args name value = (args', true) →
    coreSettingValuesEqual api name (readBack api args' name) value = true ∧
      ((args'.rw_settings name).isSome = true ↔
        coreSettingValuesEqual api name value (givenValue api args name) = false)

/-- The signer is to be cleared while one is configured. -/
def ClearsConfiguredSigner (name : Name) (value : SettingsValue) : Prop :=
  name = .signer ∧ value = .null ∧ settingTextEmpty (api.settingToString (args.config .signer)) = false

end

/-! ## Equality of values -/

section

variable {api : CoreApi} {args : ArgsManager} {name : Name} {value other : SettingsValue}

theorem bothEqual_comm {α : Type} [DecidableEq α] (left right : Option α) :
    bothEqual left right = bothEqual right left := by
  rw [Bool.eq_iff_iff, bothEqual_iff, bothEqual_iff]
  constructor <;> exact fun ⟨x, hleft, hright⟩ => ⟨x, hright, hleft⟩

theorem coreSettingValuesEqual_comm :
    coreSettingValuesEqual api name value other = coreSettingValuesEqual api name other value := by
  unfold coreSettingValuesEqual
  rw [Bool.and_comm value.isNull, bothEqual_comm (api.settingToBool value),
    bothEqual_comm (api.settingToInt value), bothEqual_comm (api.settingToString value),
    Bool.and_comm (settingTextEmpty (api.settingToString value))]
  simp only [@eq_comm _ (api.write value)]

theorem pruneSetting_int (enabled : Bool) {prune_size_gb : Int} (h : IsInt prune_size_gb) :
    ∃ n, Int64.Fits n ∧ pruneSetting enabled prune_size_gb = .int n := by
  cases enabled with
  | false => exact ⟨0, by decide, rfl⟩
  | true =>
    refine ⟨_, ?_, rfl⟩
    simp only [IsInt, Int64.Fits, Int64.smallest, Int64.largest, pruneGBToMiB, GB_BYTES] at *
    split <;> omega

/-- The value is not null, and as it is stored it is equal to itself. -/
def StoredEqual (api : CoreApi) (name : Name) (value : SettingsValue) : Prop :=
  value.isNull = false ∧
    coreSettingValuesEqual api name (legacyCompatibleRwSettingValue name value) value = true

theorem storedEqual_flag (h : api.Lawful) (hkind : isBoolCoreSetting name = true) (flag : Bool) :
    StoredEqual api name (.bool flag) := by
  refine ⟨rfl, ?_⟩
  unfold coreSettingValuesEqual
  rw [if_neg (by simp [SettingsValue.isNull])]
  simp only [hkind, if_true]
  exact bothEqual_iff.mpr ⟨flag, h.settingToBool_bool flag, h.settingToBool_bool flag⟩

theorem storedEqual_number (hints : api.ReadsIntegers) (hkind : isIntCoreSetting name = true) {n : Int}
    (hn : Int64.Fits n) : StoredEqual api name (.int n) := by
  have hbool : isBoolCoreSetting name = false := by
    cases name <;> first | rfl | cases hkind
  have hstored : api.settingToInt (legacyCompatibleRwSettingValue name (.int n)) = some n := by
    cases hvalue : SettingsValue.int n with
    | num text =>
      simp only [legacyCompatibleRwSettingValue]
      split
      · exact hints.str n text hn hvalue
      · exact hvalue ▸ hints.num n hn
    | null | bool | str | other => cases n <;> cases hvalue
  refine ⟨isNull_int n, ?_⟩
  unfold coreSettingValuesEqual
  rw [if_neg (by simp [isNull_int])]
  simp only [hbool, hkind, Bool.false_eq_true, if_false, if_true]
  exact bothEqual_iff.mpr ⟨n, hstored, hints.num n hn⟩

theorem IsInt.fits {n : Int} (h : IsInt n) : Int64.Fits n := by
  simp only [IsInt, Int64.Fits, Int64.smallest, Int64.largest] at *
  omega

theorem storedEqual_text (hkind : isOptionalStringCoreSetting name = true) {text : Str}
    (hvalue : value.isNull = false) (htext : api.settingToString value = some text)
    (hstored : legacyCompatibleRwSettingValue name value = value) : StoredEqual api name value := by
  have hbool : isBoolCoreSetting name = false := by
    cases name <;> first | rfl | cases hkind
  have hint : isIntCoreSetting name = false := by
    cases name <;> first | rfl | cases hkind
  refine ⟨hvalue, ?_⟩
  rw [hstored]
  unfold coreSettingValuesEqual
  rw [if_neg (by simp [hvalue])]
  simp only [hbool, hint, hkind, Bool.false_eq_true, if_false, if_true]
  split
  · rfl
  · exact bothEqual_iff.mpr ⟨text, htext, htext⟩

theorem storedEqual_path (h : api.Lawful) (hkind : isOptionalStringCoreSetting name = true) (path : Str) :
    StoredEqual api name (.str path) :=
  storedEqual_text hkind rfl (h.settingToString_str path) rfl

theorem storedEqual_proxy (h : api.Lawful) (hkind : isOptionalStringCoreSetting name = true) (enabled : Bool)
    (address : Str) : StoredEqual api name (proxySetting api enabled address) := by
  unfold proxySetting
  split
  · exact storedEqual_text hkind rfl (h.settingToString_str _) rfl
  · exact storedEqual_text hkind rfl h.settingToString_false rfl

/-- A value that an editor asks for is equal to itself as it is stored, unless it is the null of the signer. -/
theorem equal_stored (h : api.Lawful) (hints : api.ReadsIntegers) (hvalue : EditorValue api name value) :
    (name = .signer ∧ value = .null) ∨ StoredEqual api name value := by
  cases name with
  | listen | natpmp | server =>
    obtain ⟨flag, rfl⟩ := hvalue
    exact .inr (storedEqual_flag h rfl flag)
  | prune =>
    obtain ⟨enabled, prune_size_gb, hsize, rfl⟩ := hvalue
    obtain ⟨n, hn, hint⟩ := pruneSetting_int enabled hsize
    rw [hint]
    exact .inr (storedEqual_number hints rfl hn)
  | dbcache | par | maxmempool =>
    obtain ⟨n, hn, rfl⟩ := hvalue
    exact .inr (storedEqual_number hints rfl hn.fits)
  | proxy | onion =>
    obtain ⟨enabled, address, rfl⟩ := hvalue
    exact .inr (storedEqual_proxy h rfl enabled address)
  | signer =>
    rcases hvalue with rfl | ⟨path, rfl⟩
    · exact .inl ⟨rfl, rfl⟩
    · exact .inr (storedEqual_path h rfl path)
  | lang =>
    obtain ⟨language, rfl⟩ := hvalue
    exact .inr (storedEqual_path h rfl language)
  | _ => exact hvalue.elim

/-! ## What is stored -/

theorem guiOverrideValue_eq (hforced : args.forced_settings name = none) :
    guiOverrideValue api args name value =
      if coreSettingValuesEqual api name value (givenValue api args name) then .null else value := by
  have hnull : (forcedParameterInteractionValue args name).isNull = true := by
    unfold forcedParameterInteractionValue
    rw [hforced]
    split <;> rfl
  unfold guiOverrideValue givenValue
  simp only [hnull, Bool.not_true, Bool.false_eq_true, if_false]
  cases (args.config name).isNull <;> rfl

theorem readBack_of_none (h : args.rw_settings name = none) : readBack api args name = givenValue api args name := by
  unfold readBack givenValue ArgsManager.getPersistentSetting
  rw [h]
  rfl

theorem readBack_of_some (h : args.rw_settings name = some value) (hvalue : value.isNull = false) :
    readBack api args name = value := by
  unfold readBack ArgsManager.getPersistentSetting
  rw [h]
  exact if_neg (by simp [hvalue])

theorem setRwSetting_null : (setRwSetting args name .null).rw_settings name = none := setRw_self none

theorem setRwSetting_of_not_null (hvalue : value.isNull = false) :
    (setRwSetting args name value).rw_settings name = some (legacyCompatibleRwSettingValue name value) := by
  unfold setRwSetting
  dsimp only
  rw [setRw_self, isNull_legacyCompatible, hvalue]
  rfl

theorem givenValue_setRwSetting : givenValue api (setRwSetting args name other) name = givenValue api args name := rfl

theorem overrideRight_iff (hcmd : args.command_line_options name = []) (hforced : args.forced_settings name = none)
    (hstored : value = .null ∨ StoredEqual api name value) :
    OverrideRight api args name value ↔
      (value = .null → coreSettingValuesEqual api name value (givenValue api args name) = true) := by
  have hwrite : writeCoreSettingOverride api args name value =
      (setRwSetting args name (guiOverrideValue api args name value), true) :=
    if_neg (by simp [canEdit_of_nil hcmd])
  have hright : OverrideRight api args name value ↔
      coreSettingValuesEqual api name
          (readBack api (setRwSetting args name (guiOverrideValue api args name value)) name) value = true ∧
        (((setRwSetting args name (guiOverrideValue api args name value)).rw_settings name).isSome = true ↔
          coreSettingValuesEqual api name value (givenValue api args name) = false) := by
    unfold OverrideRight
    rw [hwrite]
    exact ⟨fun h => h _ rfl, fun h args' hargs => (Prod.mk.inj hargs).1 ▸ h⟩
  rw [hright, guiOverrideValue_eq hforced]
  cases hequal : coreSettingValuesEqual api name value (givenValue api args name) with
  | true =>
    simp only [if_true]
    rw [readBack_of_none setRwSetting_null, givenValue_setRwSetting, coreSettingValuesEqual_comm, setRwSetting_null]
    simp [hequal]
  | false =>
    simp only [Bool.false_eq_true, if_false]
    rcases hstored with rfl | ⟨hnull, hsame⟩
    · rw [readBack_of_none setRwSetting_null, givenValue_setRwSetting, coreSettingValuesEqual_comm]
      simp [hequal]
    · have hentry : (setRwSetting args name value).rw_settings name =
          some (legacyCompatibleRwSettingValue name value) := setRwSetting_of_not_null hnull
      rw [readBack_of_some hentry (by rw [isNull_legacyCompatible, hnull]), hentry, hsame]
      simp only [Option.isSome_some, true_and, true_iff]
      intro hvalue
      simp [hvalue, SettingsValue.isNull] at hnull

theorem null_signer_given (h : api.Lawful) :
    coreSettingValuesEqual api .signer .null (givenValue api args .signer) =
      settingTextEmpty (api.settingToString (args.config .signer)) := by
  have hempty : settingTextEmpty (api.settingToString .null) = true := by
    rw [h.settingToString_null]
    rfl
  unfold givenValue
  cases hconfig : (args.config .signer).isNull with
  | true =>
    have hnull : args.config .signer = .null := by simpa [SettingsValue.isNull] using hconfig
    rw [hnull, hempty]
    rfl
  | false =>
    unfold coreSettingValuesEqual
    simp only [Bool.false_eq_true, if_false, hconfig, Bool.and_false, isBoolCoreSetting, isIntCoreSetting,
      isOptionalStringCoreSetting, if_true, hempty, Bool.true_and]
    rw [h.settingToString_null]
    cases settingTextEmpty (api.settingToString (args.config .signer)) <;> simp [bothEqual]

end

/-- What an editor asks for is written and read back, unless it clears a signer that is configured. -/
theorem override_right_iff {api : CoreApi} (h : api.Lawful) (hints : api.ReadsIntegers) {args : ArgsManager}
    {name : Name} (hcmd : args.command_line_options name = []) (hforced : args.forced_settings name = none)
    {value : SettingsValue} (hvalue : EditorValue api name value) :
    OverrideRight api args name value ↔ ¬ClearsConfiguredSigner api args name value := by
  rcases equal_stored h hints hvalue with ⟨rfl, rfl⟩ | hstored
  · rw [overrideRight_iff hcmd hforced (.inl rfl), forall_prop_of_true rfl, null_signer_given h]
    simp [ClearsConfiguredSigner]
  · rw [overrideRight_iff hcmd hforced (.inr hstored)]
    have hnot : value ≠ .null := by
      rintro rfl
      cases hstored.1
    exact iff_of_true (fun hnull => absurd hnull hnot) fun hclears => hnot hclears.2.1

/-! ## A signer that comes back -/

/-- Core, with numbers below zero. -/
def signedCore : CoreApi :=
  { plainCore with
    settingToInt := fun
      | .null | .other _ => none
      | .bool value => some value.toNat
      | .num text | .str text =>
        if text.head? = some '-' then some (-Nat.ofDigitChars 10 text.tail 0) else some (Nat.ofDigitChars 10 text 0) }

theorem head_toDigits (n : Nat) : (Nat.toDigits 10 n).head? ≠ some '-' := by
  intro h
  exact absurd (Nat.isDigit_of_mem_toDigits (by omega) (by omega) (List.mem_of_mem_head? h)) (by decide)

theorem signedCore_nat (n : Nat) : signedCore.settingToInt (.str (Nat.toDigits 10 n)) = some (n : Int) := by
  show (if _ then _ else _) = _
  rw [if_neg (head_toDigits n), Nat.ofDigitChars_ten_toDigits]

theorem signedCore_lawful : signedCore.Lawful :=
  { plainCore_lawful with
    settingToInt_null := rfl
    settingToInt_num := fun n _ => signedCore_nat n
    settingToInt_str := fun n _ => signedCore_nat n }

theorem signedCore_readsIntegers : signedCore.ReadsIntegers := by
  have hread : ∀ (n : Int) (text : Str), .int n = SettingsValue.num text →
      signedCore.settingToInt (.str text) = some n := by
    intro n text htext
    cases n with
    | ofNat n =>
      obtain rfl := SettingsValue.num.inj htext
      exact signedCore_nat n
    | negSucc n =>
      obtain rfl := SettingsValue.num.inj htext
      show some (-((Nat.ofDigitChars 10 (Nat.toDigits 10 (n + 1)) 0 : Nat) : Int)) = _
      rw [Nat.ofDigitChars_ten_toDigits]
      rfl
  refine ⟨fun n _ => ?_, fun n text _ => hread n text⟩
  cases n <;> exact hread _ _ rfl

theorem override_right_threads : OverrideRight signedCore emptyArgs .par (.int (-1)) :=
  have hvalue : EditorValue signedCore .par (.int (-1)) := ⟨-1, ⟨by decide, by decide⟩, rfl⟩
  (override_right_iff signedCore_lawful signedCore_readsIntegers rfl rfl hvalue).mpr
    fun hclears => by cases hclears.1

def signerConfigured : ArgsManager :=
  { emptyArgs with config := fun name => if name = .signer then .str "hwi".toList else .null }

/-- The cleared signer is the configured one, and there is no entry. -/
theorem not_override_right_signer :
    EditorValue signedCore .signer .null ∧ signerConfigured.command_line_options .signer = [] ∧
      signerConfigured.forced_settings .signer = none ∧
      ¬OverrideRight signedCore signerConfigured .signer .null := by
  refine ⟨.inl rfl, rfl, rfl, fun h => ?_⟩
  have hequal := (h _ rfl).1
  revert hequal
  decide

end GuiQml.Settings
