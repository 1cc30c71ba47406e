import GuiQml.Settings.Precedence

/-!
# What the legacy keys ask for

The settings that a migration comes to, read off the keys of both stores, and what the keys ask for that are left
when it ends early.
-/

namespace GuiQml.Settings

open LastWrite LegacySetting

/-- What is asked for of a setting under a name, if anything. -/
abbrev Asks := LegacySetting → Name → Option (Option SettingsValue)

/-- The keys of the QML store decide where they write the setting itself, and where those of Bitcoin-Qt ask for
nothing under the name. -/
def decisive (qml bitcoin_qt : Asks) : Asks := fun x k =>
  if (qml x x.name).isSome || (bitcoin_qt x k).isNone then qml x k else bitcoin_qt x k

def LegacySetting.all : List LegacySetting :=
  [.dbcache, .par, .spendzeroconfchange, .signer, .natpmp, .listen, .server, .prune, .proxy, .onion, .lang]

/-- The settings file that has what is asked for, where the setting is not there yet. -/
def askedRw (args : ArgsManager) (asks : Asks) : RwSettings := fun k =>
  match LegacySetting.all.find? fun x => k ∈ x.names with
  | none => args.rw_settings k
  | some x =>
    if hasPersistentSetting args x.name then args.rw_settings k else (asks x k).getD (args.rw_settings k)

section Asked

variable {V : Type} {api : CoreApi} {qt : QVariantApi V} {mode : MigrationMode} {args : ArgsManager}
  {qml bitcoin_qt : QSettings V} {asks : Asks} {x : LegacySetting} {k : Name}

/-! ## Names -/

theorem askedRw_of_mem (hk : k ∈ x.names) : askedRw args asks k =
    if hasPersistentSetting args x.name then args.rw_settings k else (asks x k).getD (args.rw_settings k) := by
  have hfind : (LegacySetting.all.find? fun x => k ∈ x.names) = some x := by
    have hcase : k = x.name ∨ k = x.name.prev := by simpa [names] using hk
    rcases hcase with rfl | rfl <;> cases x <;> rfl
  unfold askedRw
  rw [hfind]

theorem askedRw_of_no_setting (h : ∀ x : LegacySetting, k ∉ x.names) : askedRw args asks k = args.rw_settings k := by
  have hfind : (LegacySetting.all.find? fun x => k ∈ x.names) = none :=
    List.find?_eq_none.mpr fun x _ => by simpa using h x
  unfold askedRw
  rw [hfind]

theorem foldl_migrateSetting_of_notMem (version : Int) (l : List LegacySetting) (m : Migration V)
    (h : ∀ x : LegacySetting, k ∉ x.names) :
    (l.foldl (migrateSetting api qt mode version) m).args.rw_settings k = m.args.rw_settings k := by
  induction l generalizing m with
  | nil => rfl
  | cons x l ih => rw [List.foldl_cons, ih, migrateSetting_rw_of_notMem (h x)]

theorem migrateStore_rw_of_no_setting (args : ArgsManager) (store : SettingsStore V)
    (h : ∀ x : LegacySetting, k ∉ x.names) :
    (migrateStore api qt args store mode).args.rw_settings k = args.rw_settings k := by
  unfold migrateStore migrateSettings
  split
  · rfl
  · exact foldl_migrateSetting_of_notMem _ _ _ h

theorem migratedRw_of_no_setting (h : ∀ x : LegacySetting, k ∉ x.names) :
    migratedRw api qt args qml bitcoin_qt mode k = args.rw_settings k := by
  unfold migratedRw migrateCoreSettings
  split
  · rfl
  · exact (migrateStore_rw_of_no_setting _ _ h).trans (migrateStore_rw_of_no_setting _ _ h)

theorem migratedRw_eq_asked (hpath : args.settings_path = true) :
    migratedRw api qt args qml bitcoin_qt mode =
      askedRw args (decisive (storeAsks api qt ⟨false, qml⟩) (storeAsks api qt ⟨true, bitcoin_qt⟩)) := by
  funext k
  by_cases hsetting : ∃ x : LegacySetting, k ∈ x.names
  · obtain ⟨x, hk⟩ := hsetting
    rw [migratedRw_eq_asks hpath hk, askedRw_of_mem hk]
    unfold decisive
    cases storeAsks api qt ⟨false, qml⟩ x x.name <;> cases storeAsks api qt ⟨true, bitcoin_qt⟩ x k <;> simp
  · rw [not_exists] at hsetting
    rw [migratedRw_of_no_setting hsetting, askedRw_of_no_setting hsetting]

/-! ## Keys that are left -/

theorem foldl_migrateSetting_settings {version : Int} (l : List LegacySetting) (m : Migration V) (key : LegacyKey) :
    (l.foldl (migrateSetting api qt mode version) m).settings key =
      if mode = .persist ∧ ∃ x ∈ l, key ∈ x.keys then none else m.settings key := by
  induction l generalizing m with
  | nil => simp
  | cons y l ih =>
    rw [List.foldl_cons, ih, migrateSetting_settings]
    by_cases hmode : mode = .persist
    · by_cases hkey : key ∈ y.keys <;> simp [hmode, hkey]
    · simp [hmode]

theorem storeAsks_of_no_keys {store : SettingsStore V} (h : ∀ key ∈ x.keys, store.settings key = none) :
    storeAsks api qt store x k = none := by
  unfold storeAsks
  split
  · exact legacyAsks_nil h k
  · rfl

/-- The version of a store once a migration has begun that is kept. -/
def raisedVersion (api : CoreApi) (qt : QVariantApi V) (settings : QSettings V) : Int :=
  legacySettingsVersion qt
    (updateLegacySettingsVersion api qt settings (legacySettingsVersion qt settings) .persist)

/-- What the keys of a store ask for after a migration has taken those of some settings. -/
def leftAsks (api : CoreApi) (qt : QVariantApi V) (store : SettingsStore V) (taken : List LegacySetting) : Asks :=
  fun x k =>
    if x ∈ legacySettings api store.legacy_qt ∧ x ∉ taken then
      last ((legacyWrites api qt (raisedVersion api qt store.settings) store.settings x).map stored) k
    else none

theorem leftAsks_all (store : SettingsStore V) :
    leftAsks api qt store (legacySettings api store.legacy_qt) = fun _ _ => none := by
  funext x k
  unfold leftAsks
  rw [if_neg fun h => h.2 h.1]

theorem storeAsks_migrateSettings (legacy_qt : Bool) (settings : QSettings V) (taken : List LegacySetting) :
    storeAsks api qt ⟨legacy_qt, (migrateSettings api qt args ⟨legacy_qt, settings⟩ .persist taken).settings⟩ =
      leftAsks api qt ⟨legacy_qt, settings⟩ taken := by
  funext x k
  unfold storeAsks leftAsks
  dsimp only
  by_cases hx : x ∈ legacySettings api legacy_qt
  swap
  · rw [if_neg hx, if_neg fun h => hx h.1]
  rw [if_pos hx]
  unfold migrateSettings
  split
  · rename_i hnone
    have hkeys : ∀ key ∈ x.keys, settings key = none := fun key hkey => by
      simpa using List.all_eq_true.mp hnone key (keys_subset_legacyCoreKeys hx key hkey)
    rw [legacyAsks_nil hkeys, legacyWrites_nil hkeys]
    exact (ite_self _).symm
  · dsimp only
    generalize hleft : (taken.foldl (migrateSetting api qt .persist (legacySettingsVersion qt settings))
      { args, settings := updateLegacySettingsVersion api qt settings (legacySettingsVersion qt settings)
          .persist }).settings = left
    have hkey (key : LegacyKey) : left key = if ∃ y ∈ taken, key ∈ y.keys then none
        else updateLegacySettingsVersion api qt settings (legacySettingsVersion qt settings) .persist key := by
      rw [← hleft, foldl_migrateSetting_settings]
      simp only [true_and]
    by_cases htaken : x ∈ taken
    · rw [if_neg fun h => h.2 htaken]
      exact legacyAsks_nil (fun key hmem => by rw [hkey, if_pos ⟨x, htaken, hmem⟩]) k
    · rw [if_pos ⟨hx, htaken⟩]
      have hversion : legacySettingsVersion qt left = raisedVersion api qt settings := by
        have hkept : ¬∃ y ∈ taken, LegacyKey.nSettingsVersion ∈ y.keys := by
          rintro ⟨y, -, hy⟩
          exact version_notMem_keys y hy
        unfold raisedVersion legacySettingsVersion
        rw [hkey, if_neg hkept]
        rfl
      have hkeys : ∀ key ∈ x.keys, left key = settings key := by
        intro key hmem
        have hkept : ¬∃ y ∈ taken, key ∈ y.keys := by
          rintro ⟨y, hy, hmem'⟩
          exact keys_disjoint (fun heq : x = y => htaken (heq ▸ hy)) key hmem hmem'
        rw [hkey, if_neg hkept, updateLegacySettingsVersion_of_ne fun heq => version_notMem_keys x (heq ▸ hmem)]
      unfold legacyAsks
      rw [hversion, legacyWrites_congr hkeys]

theorem storeAsks_migrateStore (legacy_qt : Bool) (settings : QSettings V) :
    storeAsks api qt ⟨legacy_qt, (migrateStore api qt args ⟨legacy_qt, settings⟩ .persist).settings⟩ =
      fun _ _ => none :=
  (storeAsks_migrateSettings legacy_qt settings _).trans (leftAsks_all ⟨legacy_qt, settings⟩)

theorem decisive_none (bitcoin_qt : Asks) : decisive (fun _ _ => none) bitcoin_qt = bitcoin_qt := by
  funext x k
  unfold decisive
  cases bitcoin_qt x k <;> rfl

end Asked

end GuiQml.Settings
