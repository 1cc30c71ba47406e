import GuiQml.Settings.Migration
import GuiQml.Settings.RoundTrip

/-!
# Which store decides a setting

Each setting is migrated from its own keys to its own names, so the migration of a store is looked at one
setting at a time.
-/

namespace GuiQml.Settings

open LastWrite

namespace LegacySetting

def name : LegacySetting → Name
  | .dbcache => .dbcache
  | .par => .par
  | .spendzeroconfchange => .spendzeroconfchange
  | .signer => .signer
  | .natpmp => .natpmp
  | .listen => .listen
  | .server => .server
  | .prune => .prune
  | .proxy => .proxy
  | .onion => .onion
  | .lang => .lang

/-- The setting and its `-prev` setting. -/
def names (x : LegacySetting) : List Name := [x.name, x.name.prev]

def keys : LegacySetting → List LegacyKey
  | .dbcache => [.nDatabaseCache]
  | .par => [.nThreadsScriptVerif]
  | .spendzeroconfchange => [.bSpendZeroConfChange]
  | .signer => [.external_signer_path]
  | .natpmp => [.fUseNatpmp]
  | .listen => [.fListen]
  | .server => [.server]
  | .prune => [.nPruneSize, .bPrune]
  | .proxy => [.addrProxy, .fUseProxy]
  | .onion => [.addrSeparateProxyTor, .fUseSeparateProxyTor]
  | .lang => [.language]

theorem names_disjoint {x y : LegacySetting} (h : x ≠ y) : ∀ k ∈ x.names, k ∉ y.names := by
  cases x <;> cases y <;> first | exact absurd rfl h | decide

theorem keys_disjoint {x y : LegacySetting} (h : x ≠ y) : ∀ k ∈ x.keys, k ∉ y.keys := by
  cases x <;> cases y <;> first | exact absurd rfl h | decide

end LegacySetting

open LegacySetting

section Precedence

variable {V : Type} {api : CoreApi} {qt : QVariantApi V} {mode : MigrationMode} {x : LegacySetting}
  {settings settings' : QSettings V} {version : Int}

/-! ## What a store asks for -/

/-- What the keys of a setting ask for, where the setting is not there yet. -/
def legacyWrites (api : CoreApi) (qt : QVariantApi V) (version : Int) (settings : QSettings V) :
    LegacySetting → List (Name × SettingsValue)
  | .dbcache => simpleWrites api settings .nDatabaseCache .dbcache (fun value =>
      .int (if version < 130000 && qt.toLongLong value = 100 then api.DEFAULT_DB_CACHE >>> 20
        else qt.toLongLong value))
  | .par => simpleWrites api settings .nThreadsScriptVerif .par (fun value =>
      .int (qt.toLongLong value))
  | .spendzeroconfchange => simpleWrites api settings .bSpendZeroConfChange .spendzeroconfchange
      (fun value => .bool (qt.toBool value))
  | .signer => simpleWrites api settings .external_signer_path .signer (fun value =>
      .str (qt.toString value))
  | .natpmp => simpleWrites api settings .fUseNatpmp .natpmp (fun value => .bool (qt.toBool value))
  | .listen => simpleWrites api settings .fListen .listen (fun value => .bool (qt.toBool value))
  | .server => simpleWrites api settings .server .server (fun value => .bool (qt.toBool value))
  | .prune => pruneWrites api qt settings
  | .proxy => proxyWrites api qt settings .addrProxy .fUseProxy .proxy
  | .onion => proxyWrites api qt settings .addrSeparateProxyTor .fUseSeparateProxyTor .onion
  | .lang => simpleWrites api settings .language .lang (fun value => .str (qt.toString value))

theorem migrateSetting_eq (m : Migration V) : migrateSetting api qt mode version m x =
    migrateKeys mode x.keys x.name (legacyWrites api qt version m.settings x) m := by
  cases x <;> rfl

/-- What a write leaves under its name. -/
def stored (w : Name × SettingsValue) : Write Name SettingsValue :=
  (w.1, if w.2.isNull then none else some (legacyCompatibleRwSettingValue w.1 w.2))

/-- What the keys of a setting ask for under a name, if anything. -/
def legacyAsks (api : CoreApi) (qt : QVariantApi V) (settings : QSettings V) (x : LegacySetting) :
    Name → Option (Option SettingsValue) :=
  last ((legacyWrites api qt (legacySettingsVersion qt settings) settings x).map stored)

theorem setRwSetting_eq (args : ArgsManager) (w : Name × SettingsValue) :
    setRwSetting args w.1 w.2 = { args with
      rw_settings := Function.update args.rw_settings (stored w).1 (stored w).2 } := by
  unfold setRwSetting stored ArgsManager.setRw
  dsimp only
  rw [isNull_legacyCompatible]

theorem foldl_setRwSetting (writes : List (Name × SettingsValue)) (args : ArgsManager) :
    writes.foldl (fun args w => setRwSetting args w.1 w.2) args =
      { args with rw_settings := apply args.rw_settings (writes.map stored) } := by
  induction writes generalizing args with
  | nil => rfl
  | cons w writes ih =>
    rw [List.foldl_cons, setRwSetting_eq, ih]
    rfl

theorem legacyWrites_nil (h : ∀ key ∈ x.keys, settings key = none) :
    legacyWrites api qt version settings x = [] := by
  cases x with
  | prune =>
    simp [legacyWrites, pruneWrites, h .nPruneSize (by decide), h .bPrune (by decide)]
  | proxy =>
    simp [legacyWrites, proxyWrites, h .addrProxy (by decide), h .fUseProxy (by decide)]
  | onion =>
    simp [legacyWrites, proxyWrites, h .addrSeparateProxyTor (by decide),
      h .fUseSeparateProxyTor (by decide)]
  | _ => simp [legacyWrites, simpleWrites, h _ List.mem_cons_self]

theorem legacyWrites_congr (h : ∀ key ∈ x.keys, settings' key = settings key) :
    legacyWrites api qt version settings' x = legacyWrites api qt version settings x := by
  cases x with
  | prune =>
    simp only [legacyWrites, pruneWrites, h .nPruneSize (by decide), h .bPrune (by decide)]
  | proxy =>
    simp only [legacyWrites, proxyWrites, h .addrProxy (by decide), h .fUseProxy (by decide)]
  | onion =>
    simp only [legacyWrites, proxyWrites, h .addrSeparateProxyTor (by decide),
      h .fUseSeparateProxyTor (by decide)]
  | _ => simp only [legacyWrites, simpleWrites, h _ List.mem_cons_self]

/-! ## One setting of one store -/

theorem migrateSetting_args (m : Migration V) :
    (migrateSetting api qt mode version m x).args = { m.args with
      rw_settings := if hasPersistentSetting m.args x.name then m.args.rw_settings
        else apply m.args.rw_settings ((legacyWrites api qt version m.settings x).map stored) } := by
  rw [migrateSetting_eq]
  unfold migrateKeys
  split
  · rename_i hnone
    have hnil : legacyWrites api qt version m.settings x = [] := by
      refine legacyWrites_nil fun key hkey => ?_
      simpa using List.all_eq_true.mp hnone key hkey
    rw [hnil]
    split <;> rfl
  · dsimp only
    by_cases hheld : hasPersistentSetting m.args x.name = true
    · simp only [hheld, if_true]
      split <;> rfl
    · simp only [hheld, foldl_setRwSetting]
      split <;> rfl

theorem migrateSetting_settings (m : Migration V) (key : LegacyKey) :
    (migrateSetting api qt mode version m x).settings key =
      if mode = .persist ∧ key ∈ x.keys then none else m.settings key := by
  rw [migrateSetting_eq]
  unfold migrateKeys
  split
  · rename_i hnone
    split
    · rename_i hkey
      simpa using List.all_eq_true.mp hnone key hkey.2
    · rfl
  · dsimp only
    split <;> split
    all_goals simp_all [QSettings.remove]

theorem mem_simpleWrites {qt_name : LegacyKey} {core_name : Name} {convert : V → SettingsValue}
    {w : Name × SettingsValue} (hw : w ∈ simpleWrites api settings qt_name core_name convert) :
    ∃ value, w = (core_name, convert value) := by
  unfold simpleWrites at hw
  split at hw
  · cases hw
  split at hw
  · cases hw
  · exact ⟨_, List.mem_singleton.mp hw⟩

theorem simpleWrites_names {qt_name : LegacyKey} {core_name : Name} {convert : V → SettingsValue} :
    ∀ w ∈ simpleWrites api settings qt_name core_name convert, w.1 = core_name := by
  intro w hw
  obtain ⟨value, rfl⟩ := mem_simpleWrites hw
  rfl

theorem pruneWrites_names :
    ∀ w ∈ pruneWrites api qt settings, w.1 = .prune ∨ w.1 = .prev .prune := by
  intro w hw
  unfold pruneWrites at hw
  dsimp only at hw
  split at hw
  · rcases List.mem_append.mp hw with hw | hw
    · split at hw
      · cases hw
      · exact .inl (by rw [List.mem_singleton.mp hw])
    · exact .inr (by rw [List.mem_singleton.mp hw])
  split at hw
  · exact .inr (by rw [List.mem_singleton.mp hw])
  · cases hw

theorem proxyWrites_names {address_key enabled_key : LegacyKey} {core_name : Name} :
    ∀ w ∈ proxyWrites api qt settings address_key enabled_key core_name,
      w.1 = core_name ∨ w.1 = core_name.prev := by
  intro w hw
  unfold proxyWrites at hw
  dsimp only at hw
  split at hw
  · rcases List.mem_cons.mp hw with rfl | hw
    · exact .inl rfl
    · exact .inr (by rw [List.mem_singleton.mp hw])
  split at hw
  · exact .inr (by rw [List.mem_singleton.mp hw])
  · cases hw

theorem legacyWrites_names : ∀ w ∈ legacyWrites api qt version settings x, w.1 ∈ x.names := by
  intro w hw
  have hcase : w.1 = x.name ∨ w.1 = x.name.prev := by
    cases x with
    | prune => exact pruneWrites_names w hw
    | proxy | onion => exact proxyWrites_names w hw
    | _ => exact .inl (simpleWrites_names w hw)
  simpa [names] using hcase

theorem migrateSetting_rw_of_notMem {m : Migration V} {k : Name} (hk : k ∉ x.names) :
    (migrateSetting api qt mode version m x).args.rw_settings k = m.args.rw_settings k := by
  rw [migrateSetting_args]
  dsimp only
  split
  · rfl
  · have hnone : last ((legacyWrites api qt version m.settings x).map stored) k = none := by
      refine last_eq_none fun value hmem => ?_
      obtain ⟨w, hw, heq⟩ := List.mem_map.mp hmem
      have hname : w.1 = k := congrArg Prod.fst heq
      exact hk (hname ▸ legacyWrites_names w hw)
    rw [apply_eq_last, hnone]
    rfl

theorem migrateSetting_rw_congr {m m' : Migration V} (hconfig : m'.args.config = m.args.config)
    (hrw : ∀ k ∈ x.names, m'.args.rw_settings k = m.args.rw_settings k)
    (hkeys : ∀ key ∈ x.keys, m'.settings key = m.settings key) {k : Name} (hk : k ∈ x.names) :
    (migrateSetting api qt mode version m' x).args.rw_settings k =
      (migrateSetting api qt mode version m x).args.rw_settings k := by
  have hheld : hasPersistentSetting m'.args x.name = hasPersistentSetting m.args x.name := by
    unfold hasPersistentSetting ArgsManager.getPersistentSetting
    rw [hrw x.name (by simp [names]), hconfig]
  rw [migrateSetting_args, migrateSetting_args]
  dsimp only
  rw [hheld, legacyWrites_congr hkeys]
  split
  · exact hrw k hk
  · rw [apply_eq_last, apply_eq_last, hrw k hk]

/-! ## A whole store -/

theorem foldl_migrateSetting (l : List LegacySetting) (hl : l.Nodup) (m : Migration V) {k : Name}
    (hk : k ∈ x.names) :
    (l.foldl (migrateSetting api qt mode version) m).args.rw_settings k =
      if x ∈ l then (migrateSetting api qt mode version m x).args.rw_settings k
      else m.args.rw_settings k := by
  induction l generalizing m with
  | nil => simp
  | cons y l ih =>
    obtain ⟨hy, hl⟩ := List.nodup_cons.mp hl
    rw [List.foldl_cons, ih hl]
    by_cases hxy : x = y
    · subst hxy
      simp [hy]
    · have hother : ∀ k ∈ x.names,
          (migrateSetting api qt mode version m y).args.rw_settings k = m.args.rw_settings k :=
        fun k hk => migrateSetting_rw_of_notMem (names_disjoint hxy k hk)
      rw [hother k hk]
      simp only [List.mem_cons, hxy, false_or]
      split
      · refine migrateSetting_rw_congr ?_ hother ?_ hk
        · rw [migrateSetting_args]
        · intro key hkey
          rw [migrateSetting_settings, if_neg fun h => keys_disjoint hxy key hkey h.2]
      · rfl

theorem nodup_legacySettings (include_language : Bool) :
    (legacySettings api include_language).Nodup := by
  unfold legacySettings
  cases api.ENABLE_WALLET <;> cases include_language <;> decide

/-- What migrating a store makes of a setting. -/
def migrated (api : CoreApi) (qt : QVariantApi V) (args : ArgsManager) (settings : QSettings V)
    (x : LegacySetting) (k : Name) : Option SettingsValue :=
  if hasPersistentSetting args x.name then args.rw_settings k
  else (legacyAsks api qt settings x k).getD (args.rw_settings k)

theorem version_notMem_keys (x : LegacySetting) : .nSettingsVersion ∉ x.keys := by
  cases x <;> decide

theorem updateLegacySettingsVersion_of_ne {key : LegacyKey} (h : key ≠ .nSettingsVersion) :
    updateLegacySettingsVersion api qt settings version mode key = settings key := by
  unfold updateLegacySettingsVersion
  split
  · exact Function.update_of_ne h _ _
  · rfl

theorem keys_subset_legacyCoreKeys {include_language : Bool}
    (hx : x ∈ legacySettings api include_language) :
    ∀ key ∈ x.keys, key ∈ legacyCoreKeys include_language := by
  intro key hkey
  cases x with
  | lang =>
    have hlanguage : include_language = true := by
      by_contra hno
      simp [legacySettings, hno] at hx
    rw [List.mem_singleton.mp hkey, hlanguage]
    decide
  | _ => exact List.mem_append_left _ (by revert key; decide)

theorem migrateStore_rw {args : ArgsManager} {store : SettingsStore V} {k : Name}
    (hx : x ∈ legacySettings api store.legacy_qt) (hk : k ∈ x.names) :
    (migrateStore api qt args store mode).args.rw_settings k =
      migrated api qt args store.settings x k := by
  unfold migrateStore migrateSettings migrated
  split
  · rename_i hnone
    have hkeys : ∀ key ∈ x.keys, store.settings key = none := fun key hkey => by
      simpa using List.all_eq_true.mp hnone key (keys_subset_legacyCoreKeys hx key hkey)
    unfold legacyAsks
    rw [legacyWrites_nil hkeys]
    split <;> rfl
  · dsimp only
    rw [foldl_migrateSetting _ (nodup_legacySettings _) _ hk, if_pos hx, migrateSetting_args]
    dsimp only
    have hkeys : ∀ key ∈ x.keys, updateLegacySettingsVersion api qt store.settings
        (legacySettingsVersion qt store.settings) mode key = store.settings key := fun key hkey =>
      updateLegacySettingsVersion_of_ne fun h => version_notMem_keys x (h ▸ hkey)
    rw [legacyWrites_congr hkeys]
    split
    · rfl
    · rw [apply_eq_last]
      rfl

theorem isNull_pruneSetting (enabled : Bool) (size : Int) :
    (pruneSetting enabled size).isNull = false := by
  unfold pruneSetting
  split <;> exact isNull_int _

theorem simpleWrites_isNull {qt_name : LegacyKey} {core_name : Name} {convert : V → SettingsValue}
    (hconvert : ∀ value, (convert value).isNull = false) :
    ∀ w ∈ simpleWrites api settings qt_name core_name convert, w.2.isNull = false := by
  intro w hw
  obtain ⟨value, rfl⟩ := mem_simpleWrites hw
  exact hconvert value

theorem pruneWrites_isNull {w : Name × SettingsValue} (hw : w ∈ pruneWrites api qt settings)
    (hname : w.1 = .prune) : w.2.isNull = false := by
  unfold pruneWrites at hw
  dsimp only at hw
  split at hw
  · rcases List.mem_append.mp hw with hw | hw
    · split at hw
      · cases hw
      · rw [List.mem_singleton.mp hw]
        exact isNull_pruneSetting true _
    · rw [List.mem_singleton.mp hw] at hname
      cases hname
  split at hw
  · rw [List.mem_singleton.mp hw]
    exact isNull_pruneSetting true _
  · cases hw

theorem proxyWrites_isNull {address_key enabled_key : LegacyKey} {core_name : Name}
    {w : Name × SettingsValue}
    (hw : w ∈ proxyWrites api qt settings address_key enabled_key core_name)
    (hname : w.1 = core_name) : w.2.isNull = false := by
  unfold proxyWrites at hw
  dsimp only at hw
  split at hw
  · rcases List.mem_cons.mp hw with rfl | hw
    · exact isNull_proxySetting _ _
    · rw [List.mem_singleton.mp hw] at hname
      exact absurd hname (Name.prev_ne core_name)
  split at hw
  · rw [List.mem_singleton.mp hw]
    rfl
  · cases hw

/-- What is asked for under the setting's own name is a value, never an erasure. -/
theorem legacyAsks_name {value : Option SettingsValue}
    (h : legacyAsks api qt settings x x.name = some value) :
    ∃ v, value = some v ∧ v.isNull = false := by
  obtain ⟨w, hw, heq⟩ := List.mem_map.mp (mem_of_last h)
  have hname : w.1 = x.name := congrArg Prod.fst heq
  have hnull : w.2.isNull = false := by
    cases x with
    | prune => exact pruneWrites_isNull hw hname
    | proxy | onion => exact proxyWrites_isNull hw hname
    | dbcache | par => exact simpleWrites_isNull (fun _ => isNull_int _) w hw
    | _ => exact simpleWrites_isNull (fun _ => rfl) w hw
  have hsnd : (stored w).2 = value := congrArg Prod.snd heq
  have hvalue : value = some (legacyCompatibleRwSettingValue w.1 w.2) := by
    simpa [stored, hnull] using hsnd.symm
  exact ⟨_, hvalue, by rw [isNull_legacyCompatible, hnull]⟩

/-! ## Both stores -/

theorem migrateSettings_args (args : ArgsManager) (store : SettingsStore V) (l : List LegacySetting) :
    (migrateSettings api qt args store mode l).args =
      { args with rw_settings := (migrateSettings api qt args store mode l).args.rw_settings } := by
  have hfold : ∀ (version : Int) (l : List LegacySetting) (m : Migration V),
      (l.foldl (migrateSetting api qt mode version) m).args = { m.args with
        rw_settings := (l.foldl (migrateSetting api qt mode version) m).args.rw_settings } := by
    intro version l
    induction l with
    | nil => exact fun _ => rfl
    | cons y l ih =>
      intro m
      rw [List.foldl_cons, ih, migrateSetting_args]
  unfold migrateSettings
  split
  · rfl
  · exact hfold _ _ _

theorem migrateStore_config (args : ArgsManager) (store : SettingsStore V) :
    (migrateStore api qt args store mode).args.config = args.config := by
  unfold migrateStore
  rw [migrateSettings_args]

theorem hasPersistentSetting_of_rw {args : ArgsManager} {name : Name} {value : SettingsValue}
    (hrw : args.rw_settings name = some value) (hvalue : value.isNull = false) :
    hasPersistentSetting args name = true := by
  unfold hasPersistentSetting ArgsManager.getPersistentSetting
  rw [hrw]
  simp [hvalue]

theorem hasPersistentSetting_congr {args args' : ArgsManager} {name : Name}
    (hrw : args'.rw_settings name = args.rw_settings name)
    (hconfig : args'.config = args.config) :
    hasPersistentSetting args' name = hasPersistentSetting args name := by
  unfold hasPersistentSetting ArgsManager.getPersistentSetting
  rw [hrw, hconfig]

theorem foldl_migrateSetting_mode {mode' : MigrationMode} (l : List LegacySetting) (hl : l.Nodup) {m m' : Migration V}
    (hargs : m'.args = m.args)
    (hsettings : ∀ x ∈ l, ∀ key ∈ x.keys, m'.settings key = m.settings key) :
    (l.foldl (migrateSetting api qt mode' version) m').args =
      (l.foldl (migrateSetting api qt mode version) m).args := by
  induction l generalizing m m' with
  | nil => exact hargs
  | cons x l ih =>
    obtain ⟨hx, hl⟩ := List.nodup_cons.mp hl
    rw [List.foldl_cons, List.foldl_cons]
    apply ih hl
    · rw [migrateSetting_args, migrateSetting_args, hargs,
        legacyWrites_congr (hsettings x List.mem_cons_self)]
    · intro y hy key hkey
      have hkept : key ∉ x.keys := keys_disjoint (fun h : y = x => hx (h ▸ hy)) key hkey
      simp [migrateSetting_settings, hkept, hsettings y (List.mem_cons_of_mem _ hy) key hkey]

theorem migrateStore_mode {mode' : MigrationMode} (args : ArgsManager) (store : SettingsStore V) :
    (migrateStore api qt args store mode').args = (migrateStore api qt args store mode).args := by
  unfold migrateStore migrateSettings
  split
  · rfl
  · dsimp only
    refine foldl_migrateSetting_mode _ (nodup_legacySettings _) rfl ?_
    intro x _ key hkey
    dsimp only
    have hversion : key ≠ .nSettingsVersion := fun h => version_notMem_keys x (h ▸ hkey)
    rw [updateLegacySettingsVersion_of_ne hversion, updateLegacySettingsVersion_of_ne hversion]

theorem migrateCoreSettings_mode {mode' : MigrationMode} (args : ArgsManager)
    (qml bitcoin_qt : QSettings V) :
    (migrateCoreSettings api qt args qml bitcoin_qt mode').args =
      (migrateCoreSettings api qt args qml bitcoin_qt mode).args := by
  unfold migrateCoreSettings
  split
  · rfl
  · dsimp only
    rw [migrateStore_mode args ⟨false, qml⟩, migrateStore_mode _ ⟨true, bitcoin_qt⟩]
/-- The settings file that a migration leaves. -/
def migratedRw (api : CoreApi) (qt : QVariantApi V) (args : ArgsManager) (qml bitcoin_qt : QSettings V)
    (mode : MigrationMode) : RwSettings :=
  (migrateCoreSettings api qt args qml bitcoin_qt mode).args.rw_settings

theorem mem_legacySettings_of_qml {include_language : Bool} (hx : x ∈ legacySettings api false) :
    x ∈ legacySettings api include_language := by
  unfold legacySettings at hx ⊢
  rw [if_neg Bool.false_ne_true, List.append_nil] at hx
  exact List.mem_append_left _ hx

/-- What a store asks for, of the settings that are migrated from it. -/
def storeAsks (api : CoreApi) (qt : QVariantApi V) (store : SettingsStore V) (x : LegacySetting) (k : Name) :
    Option (Option SettingsValue) :=
  if x ∈ legacySettings api store.legacy_qt then legacyAsks api qt store.settings x k else none

theorem storeAsks_name {store : SettingsStore V} {value : Option SettingsValue}
    (h : storeAsks api qt store x x.name = some value) : ∃ v, value = some v ∧ v.isNull = false := by
  unfold storeAsks at h
  split at h
  · exact legacyAsks_name h
  · cases h

theorem migrateStore_rw_of_notMem {args : ArgsManager} {store : SettingsStore V} {k : Name}
    (hx : x ∉ legacySettings api store.legacy_qt) (hk : k ∈ x.names) :
    (migrateStore api qt args store mode).args.rw_settings k = args.rw_settings k := by
  unfold migrateStore migrateSettings
  split
  · rfl
  · dsimp only
    rw [foldl_migrateSetting _ (nodup_legacySettings _) _ hk, if_neg hx]

theorem migrateStore_rw_eq {args : ArgsManager} {store : SettingsStore V} {k : Name} (hk : k ∈ x.names) :
    (migrateStore api qt args store mode).args.rw_settings k =
      if hasPersistentSetting args x.name then args.rw_settings k
      else (storeAsks api qt store x k).getD (args.rw_settings k) := by
  unfold storeAsks
  by_cases hx : x ∈ legacySettings api store.legacy_qt
  · rw [migrateStore_rw hx hk, if_pos hx]
    rfl
  · rw [migrateStore_rw_of_notMem hx hk, if_neg hx]
    exact (ite_self _).symm

/-- The second store decides only where the first did not write the setting itself. -/
theorem migratedRw_eq_asks {args : ArgsManager} {qml bitcoin_qt : QSettings V} {k : Name}
    (hpath : args.settings_path = true) (hk : k ∈ x.names) :
    migratedRw api qt args qml bitcoin_qt mode k =
      if hasPersistentSetting args x.name then args.rw_settings k
      else if (storeAsks api qt ⟨false, qml⟩ x x.name).isSome then
        (storeAsks api qt ⟨false, qml⟩ x k).getD (args.rw_settings k)
      else (storeAsks api qt ⟨true, bitcoin_qt⟩ x k).getD
        ((storeAsks api qt ⟨false, qml⟩ x k).getD (args.rw_settings k)) := by
  have hconfig : (migrateStore api qt args ⟨false, qml⟩ mode).args.config = args.config :=
    migrateStore_config args ⟨false, qml⟩
  have hsecond : migratedRw api qt args qml bitcoin_qt mode k =
      (migrateStore api qt (migrateStore api qt args ⟨false, qml⟩ mode).args ⟨true, bitcoin_qt⟩
        mode).args.rw_settings k := by
    unfold migratedRw migrateCoreSettings
    rw [hpath]
    rfl
  rw [hsecond, migrateStore_rw_eq hk]
  by_cases hheld : hasPersistentSetting args x.name = true
  · have hkept : ∀ k ∈ x.names,
        (migrateStore api qt args ⟨false, qml⟩ mode).args.rw_settings k = args.rw_settings k := by
      intro k hk
      rw [migrateStore_rw_eq hk, if_pos hheld]
    have hheld' := hasPersistentSetting_congr (hkept x.name (by simp [names])) hconfig
    rw [hheld', if_pos hheld, if_pos hheld, hkept k hk]
  · have hown : ∀ k ∈ x.names, (migrateStore api qt args ⟨false, qml⟩ mode).args.rw_settings k =
        (storeAsks api qt ⟨false, qml⟩ x k).getD (args.rw_settings k) := by
      intro k hk
      rw [migrateStore_rw_eq hk, if_neg hheld]
    have hname := hown x.name (by simp [names])
    rw [if_neg hheld]
    cases hasks : storeAsks api qt ⟨false, qml⟩ x x.name with
    | some value =>
      obtain ⟨v, rfl, hv⟩ := storeAsks_name hasks
      rw [hasks, Option.getD_some] at hname
      rw [if_pos (hasPersistentSetting_of_rw hname hv), hown k hk]
      rfl
    | none =>
      rw [hasks, Option.getD_none] at hname
      rw [hasPersistentSetting_congr hname hconfig, if_neg hheld, hown k hk]
      rfl

theorem migratedRw_eq {args : ArgsManager} {qml bitcoin_qt : QSettings V} {k : Name}
    (hpath : args.settings_path = true) (hx : x ∈ legacySettings api false) (hk : k ∈ x.names) :
    migratedRw api qt args qml bitcoin_qt mode k =
      if hasPersistentSetting args x.name then args.rw_settings k
      else if (legacyAsks api qt qml x x.name).isSome then
        (legacyAsks api qt qml x k).getD (args.rw_settings k)
      else (legacyAsks api qt bitcoin_qt x k).getD
        ((legacyAsks api qt qml x k).getD (args.rw_settings k)) := by
  rw [migratedRw_eq_asks hpath hk]
  simp only [storeAsks, hx, mem_legacySettings_of_qml hx, if_true]

theorem migratedRw_of_no_path {args : ArgsManager} {qml bitcoin_qt : QSettings V}
    (hpath : args.settings_path = false) :
    migratedRw api qt args qml bitcoin_qt mode = args.rw_settings := by
  unfold migratedRw migrateCoreSettings
  rw [hpath]
  rfl

theorem legacyAsks_nil (h : ∀ key ∈ x.keys, settings key = none) (k : Name) :
    legacyAsks api qt settings x k = none := by
  unfold legacyAsks
  rw [legacyWrites_nil h]
  rfl

/-! ## Precedence -/

def Saved (args : ArgsManager) (name : Name) : Prop :=
  ∃ value, args.rw_settings name = some value ∧ value.isNull = false

/-- A saved setting stays. Otherwise the QML store decides if it has a key of the setting, and
otherwise the one of Bitcoin-Qt. -/
structure RespectsPrecedence (api : CoreApi) (qt : QVariantApi V) (args : ArgsManager)
    (qml bitcoin_qt : QSettings V) (mode : MigrationMode) (x : LegacySetting) : Prop where
  saved : Saved args x.name →
    ∀ k ∈ x.names, migratedRw api qt args qml bitcoin_qt mode k = args.rw_settings k
  of_qml : ¬Saved args x.name → (∃ key ∈ x.keys, qml key ≠ none) →
    ∀ k ∈ x.names, migratedRw api qt args qml bitcoin_qt mode k =
      migratedRw api qt args qml (fun _ => none) mode k
  of_bitcoin_qt : ¬Saved args x.name → (∀ key ∈ x.keys, qml key = none) →
    ∀ k ∈ x.names, migratedRw api qt args qml bitcoin_qt mode k =
      migratedRw api qt args (fun _ => none) bitcoin_qt mode k

/-- The keys of Bitcoin-Qt ask for nothing but what the keys of the QML store leave. -/
def AsksNothingElse (api : CoreApi) (qt : QVariantApi V) (args : ArgsManager)
    (qml bitcoin_qt : QSettings V) (x : LegacySetting) : Prop :=
  ∀ k ∈ x.names, ∀ value, legacyAsks api qt bitcoin_qt x k = some value →
    (legacyAsks api qt qml x k).getD (args.rw_settings k) = value

/-- A setting comes from the right store unless the QML store has keys of it that do not write it, as
those of a default or of something disabled, and Bitcoin-Qt asks for something else. -/
theorem respects_precedence_iff (args : ArgsManager) (qml bitcoin_qt : QSettings V)
    (mode : MigrationMode) (hx : x ∈ legacySettings api false) :
    RespectsPrecedence api qt args qml bitcoin_qt mode x ↔
      args.settings_path = false ∨ hasPersistentSetting args x.name = true ∨
        (∀ key ∈ x.keys, qml key = none) ∨ (legacyAsks api qt qml x x.name).isSome = true ∨
          AsksNothingElse api qt args qml bitcoin_qt x := by
  have hasks : ∀ k, legacyAsks api qt (fun _ => none) x k = none :=
    fun k => legacyAsks_nil (fun _ _ => rfl) k
  by_cases hpath : args.settings_path = false
  · refine iff_of_true ?_ (.inl hpath)
    constructor <;> intros <;> simp only [migratedRw_of_no_path hpath]
  rw [Bool.not_eq_false] at hpath
  by_cases hheld : hasPersistentSetting args x.name = true
  · refine iff_of_true ?_ (.inr (.inl hheld))
    constructor <;> intros <;> rename_i hk
    all_goals simp only [migratedRw_eq hpath hx hk, hheld, if_true]
  have hsaved : ¬Saved args x.name := fun ⟨_, hrw, hvalue⟩ =>
    hheld (hasPersistentSetting_of_rw hrw hvalue)
  by_cases hkeys : ∀ key ∈ x.keys, qml key = none
  · refine iff_of_true ?_ (.inr (.inr (.inl hkeys)))
    refine ⟨fun h => absurd h hsaved, fun _ ⟨key, hkey, hqml⟩ => absurd (hkeys key hkey) hqml, ?_⟩
    intro _ _ k hk
    simp only [migratedRw_eq hpath hx hk, hasks, legacyAsks_nil hkeys]
  have hqml : ∃ key ∈ x.keys, qml key ≠ none := by
    push Not at hkeys
    exact hkeys
  have hreduce : RespectsPrecedence api qt args qml bitcoin_qt mode x ↔
      ∀ k ∈ x.names, migratedRw api qt args qml bitcoin_qt mode k =
        migratedRw api qt args qml (fun _ => none) mode k :=
    ⟨fun h => h.of_qml hsaved hqml, fun h => ⟨fun h => absurd h hsaved, fun _ _ => h,
      fun _ h => absurd h hkeys⟩⟩
  have hnopath : ¬args.settings_path = false := by simp [hpath]
  rw [hreduce, or_iff_right hnopath, or_iff_right hheld, or_iff_right hkeys]
  by_cases hown : (legacyAsks api qt qml x x.name).isSome = true
  · refine iff_of_true ?_ (.inl hown)
    intro k hk
    rw [migratedRw_eq hpath hx hk, migratedRw_eq hpath hx hk, if_pos hown, if_pos hown]
  · rw [or_iff_right hown]
    refine forall₂_congr fun k hk => ?_
    rw [migratedRw_eq hpath hx hk, migratedRw_eq hpath hx hk, if_neg hheld, if_neg hown, if_neg hheld,
      if_neg hown, hasks]
    cases legacyAsks api qt bitcoin_qt x k with
    | none => simp
    | some value => simp [eq_comm]

end Precedence

/-! ## Pruning turned on -/

/-- Numbers, with zero for false. -/
def plainVariant : QVariantApi Int where
  toInt value := value
  toLongLong value := value
  toBool value := value ≠ 0
  toString value := if value < 0 then '-' :: Nat.toDigits 10 value.natAbs else Nat.toDigits 10 value.natAbs
  ofInt value := value

/-- A store with one key. -/
def oneKey (key : LegacyKey) (value : Int) : QSettings Int :=
  Function.update (fun _ => none) key (some value)

theorem respects_precedence_pruning :
    RespectsPrecedence plainCore plainVariant emptyArgs (oneKey .bPrune 1) (oneKey .bPrune 0) .persist
        .prune ↔
      emptyArgs.settings_path = false ∨
        hasPersistentSetting emptyArgs LegacySetting.prune.name = true ∨
        (∀ key ∈ LegacySetting.prune.keys, oneKey .bPrune 1 key = none) ∨
        (legacyAsks plainCore plainVariant (oneKey .bPrune 1) .prune LegacySetting.prune.name).isSome =
          true ∨
        AsksNothingElse plainCore plainVariant emptyArgs (oneKey .bPrune 1) (oneKey .bPrune 0) .prune :=
  respects_precedence_iff emptyArgs (oneKey .bPrune 1) (oneKey .bPrune 0) .persist (by decide)

/-- The QML store says not to prune, the one of Bitcoin-Qt says to, and pruning is turned on. -/
theorem pruning_turned_on :
    ¬RespectsPrecedence plainCore plainVariant emptyArgs (oneKey .bPrune 0) (oneKey .bPrune 1) .persist
      .prune := by
  intro h
  have hprune := h.of_qml (by rintro ⟨_, hrw, _⟩; cases hrw) ⟨.bPrune, by decide, by decide⟩ .prune
    (by decide)
  revert hprune
  decide +kernel

end GuiQml.Settings
