import GuiQml.Settings.Restart

/-!
# Previewing and repeating a migration

A preview comes to the same settings as the migration and leaves the stores as they are, and what is migrated
once is migrated. A setting that is given stays, with its `-prev` setting. The `-prev` setting of one that is
not given does not count as given.
-/

namespace GuiQml.Settings

open LegacySetting

/-- The names that a setting is migrated to. Only pruning and the proxies have a `-prev` setting. -/
def LegacySetting.writtenNames : LegacySetting → List Name
  | .prune => names .prune
  | .proxy => names .proxy
  | .onion => names .onion
  | x => [x.name]

section Remigration

variable {V : Type} {api : CoreApi} {qt : QVariantApi V} {mode : MigrationMode} {args : ArgsManager}
  {qml bitcoin_qt : QSettings V} {x : LegacySetting} {k : Name}

/-! ## The stores -/

/-- What a migration leaves of a store, whatever the arguments are. -/
def leftSettings (api : CoreApi) (qt : QVariantApi V) (store : SettingsStore V) (mode : MigrationMode) :
    QSettings V := fun key =>
  if mode = .persist ∧ ∃ x ∈ legacySettings api store.legacy_qt, key ∈ x.keys then none
  else if (legacyCoreKeys store.legacy_qt).all fun key => (store.settings key).isNone then store.settings key
  else updateLegacySettingsVersion api qt store.settings (legacySettingsVersion qt store.settings) mode key

theorem migrateStore_settings_eq (store : SettingsStore V) :
    (migrateStore api qt args store mode).settings = leftSettings api qt store mode := by
  funext key
  unfold migrateStore migrateSettings leftSettings
  split
  · rename_i hnone
    split
    · rename_i hkey
      obtain ⟨-, x, hx, hkey⟩ := hkey
      simpa using List.all_eq_true.mp hnone key (keys_subset_legacyCoreKeys hx key hkey)
    · rfl
  · exact foldl_migrateSetting_settings _ _ _

theorem leftSettings_preview (store : SettingsStore V) : leftSettings api qt store .preview = store.settings := by
  funext key
  simp [leftSettings, updateLegacySettingsVersion]

theorem left_version (legacy_qt : Bool) (settings : QSettings V)
    (hsome : ¬(legacyCoreKeys legacy_qt).all fun key => (settings key).isNone) :
    leftSettings api qt ⟨legacy_qt, settings⟩ .persist .nSettingsVersion =
      if legacySettingsVersion qt settings < api.CLIENT_VERSION then some (qt.ofInt api.CLIENT_VERSION)
      else settings .nSettingsVersion := by
  unfold leftSettings
  rw [if_neg fun ⟨_, x, _, hkey⟩ => version_notMem_keys x hkey, if_neg hsome]
  unfold updateLegacySettingsVersion
  by_cases hold : legacySettingsVersion qt settings < api.CLIENT_VERSION
  · simp [hold]
  · simp [hold]

theorem left_of_none {legacy_qt : Bool} {settings : QSettings V}
    (hnone : (legacyCoreKeys legacy_qt).all fun key => (settings key).isNone) :
    (legacyCoreKeys legacy_qt).all fun key =>
      (leftSettings api qt ⟨legacy_qt, settings⟩ .persist key).isNone := by
  rw [List.all_eq_true] at hnone ⊢
  intro key hkey
  unfold leftSettings
  split
  · rfl
  · rw [if_pos (List.all_eq_true.mpr hnone)]
    exact hnone key hkey

variable (api qt) in
theorem leftSettings_persist_twice (legacy_qt : Bool) (settings : QSettings V) :
    leftSettings api qt ⟨legacy_qt, leftSettings api qt ⟨legacy_qt, settings⟩ .persist⟩ .persist =
      leftSettings api qt ⟨legacy_qt, settings⟩ .persist := by
  have hnone := @left_of_none V api qt legacy_qt settings
  have hversion := @left_version V api qt legacy_qt settings
  funext key
  by_cases hmigrated : ∃ x ∈ legacySettings api legacy_qt, key ∈ x.keys
  · unfold leftSettings
    rw [if_pos ⟨rfl, hmigrated⟩, if_pos ⟨rfl, hmigrated⟩]
  · generalize hleft : leftSettings api qt ⟨legacy_qt, settings⟩ .persist = left at hnone hversion ⊢
    unfold leftSettings
    rw [if_neg fun h => hmigrated h.2]
    split
    · rfl
    · rename_i hsome
      have hversion := hversion fun h => hsome (hnone h)
      dsimp only
      unfold updateLegacySettingsVersion
      split
      · rename_i hold
        have hnew : left .nSettingsVersion = some (qt.ofInt api.CLIENT_VERSION) := by
          rw [hversion, if_pos]
          by_contra hcurrent
          rw [if_neg hcurrent] at hversion
          simp [legacySettingsVersion, hversion] at hold hcurrent
          omega
        rw [← hnew, Function.update_eq_self]
      · rfl

/-! ## The arguments -/

theorem not_held_of_migrated (hpath : args.settings_path = true)
    (h : hasPersistentSetting (migrateCoreSettings api qt args qml bitcoin_qt mode).args x.name = false) :
    hasPersistentSetting args x.name = false ∧ storeAsks api qt ⟨false, qml⟩ x x.name = none := by
  have hname : x.name ∈ x.names := by simp [names]
  have hrw : (migrateCoreSettings api qt args qml bitcoin_qt mode).args.rw_settings x.name = _ :=
    migratedRw_eq_asks hpath hname
  have hconfig : (migrateCoreSettings api qt args qml bitcoin_qt mode).args.config = args.config := by
    rw [Startup.migrateCoreSettings_args]
  have hheld : hasPersistentSetting args x.name = false := by
    by_contra hheld
    rw [Bool.not_eq_false] at hheld
    rw [if_pos hheld] at hrw
    rw [hasPersistentSetting_congr hrw hconfig, hheld] at h
    cases h
  refine ⟨hheld, ?_⟩
  cases hasks : storeAsks api qt ⟨false, qml⟩ x x.name with
  | none => rfl
  | some value =>
    obtain ⟨v, rfl, hv⟩ := storeAsks_name hasks
    rw [hheld, if_neg Bool.false_ne_true, hasks] at hrw
    rw [hasPersistentSetting_of_rw hrw hv] at h
    cases h

/-- A migration over what another has left comes to the same settings. -/
theorem migratedRw_over (mode' : MigrationMode) (hpath : args.settings_path = true) :
    migratedRw api qt (migrateCoreSettings api qt args qml bitcoin_qt mode).args qml bitcoin_qt mode' =
      migratedRw api qt args qml bitcoin_qt mode := by
  funext k
  have hpath' : (migrateCoreSettings api qt args qml bitcoin_qt mode).args.settings_path = true := by
    rw [Startup.migrateCoreSettings_args]
    exact hpath
  have hleft : ∀ k, (migrateCoreSettings api qt args qml bitcoin_qt mode).args.rw_settings k =
      migratedRw api qt args qml bitcoin_qt mode k := fun _ => rfl
  by_cases hsetting : ∃ x : LegacySetting, k ∈ x.names
  · obtain ⟨x, hk⟩ := hsetting
    rw [migratedRw_eq_asks hpath' hk, hleft]
    cases hheld : hasPersistentSetting (migrateCoreSettings api qt args qml bitcoin_qt mode).args x.name with
    | true => rfl
    | false =>
      obtain ⟨hbefore, hasks⟩ := not_held_of_migrated hpath hheld
      rw [migratedRw_eq_asks hpath hk, hbefore, hasks]
      simp only [Bool.false_eq_true, if_false, Option.isSome_none]
      cases storeAsks api qt ⟨true, bitcoin_qt⟩ x k with
      | some value => rfl
      | none => cases storeAsks api qt ⟨false, qml⟩ x k <;> rfl
  · have hnone : ∀ x : LegacySetting, k ∉ x.names := fun x hk => hsetting ⟨x, hk⟩
    rw [migratedRw_of_no_setting hnone, hleft]

/-! ## What stays -/

theorem legacyWrites_writtenNames {version : Int} {settings : QSettings V} :
    ∀ w ∈ legacyWrites api qt version settings x, w.1 ∈ x.writtenNames := by
  intro w hw
  cases x with
  | prune | proxy | onion => exact legacyWrites_names w hw
  | _ => exact List.mem_singleton.mpr (simpleWrites_names w hw)

theorem storeAsks_of_notMem {store : SettingsStore V} (h : k ∉ x.writtenNames) :
    storeAsks api qt store x k = none := by
  unfold storeAsks
  split
  · refine LastWrite.last_eq_none fun value hmem => ?_
    obtain ⟨w, hw, heq⟩ := List.mem_map.mp hmem
    have hname : w.1 = k := congrArg Prod.fst heq
    exact h (hname ▸ legacyWrites_writtenNames w hw)
  · rfl

/-- A name is kept where each setting that is migrated to it is given, or has no keys in the stores. -/
def Given (api : CoreApi) (args : ArgsManager) (qml bitcoin_qt : QSettings V) (k : Name) : Prop :=
  ∀ x ∈ legacySettings api true, k ∈ x.writtenNames →
    hasPersistentSetting args x.name = true ∨ ∀ key ∈ x.keys, qml key = none ∧ bitcoin_qt key = none

theorem migratedRw_of_given (h : Given api args qml bitcoin_qt k) :
    migratedRw api qt args qml bitcoin_qt mode k = args.rw_settings k := by
  cases hpath : args.settings_path with
  | false => rw [migratedRw_of_no_path hpath]
  | true =>
    by_cases hsetting : ∃ x : LegacySetting, k ∈ x.names
    · obtain ⟨x, hk⟩ := hsetting
      rw [migratedRw_eq_asks hpath hk]
      split
      · rfl
      rename_i hheld
      have hasks : ∀ store : SettingsStore V, store = ⟨false, qml⟩ ∨ store = ⟨true, bitcoin_qt⟩ →
          storeAsks api qt store x k = none := by
        intro store hstore
        by_cases hwritten : k ∈ x.writtenNames
        · by_cases hx : x ∈ legacySettings api true
          · have hkeys := (h x hx hwritten).resolve_left hheld
            rcases hstore with rfl | rfl
            · exact storeAsks_of_no_keys fun key hkey => (hkeys key hkey).1
            · exact storeAsks_of_no_keys fun key hkey => (hkeys key hkey).2
          · rcases hstore with rfl | rfl
            · exact if_neg fun hqml => hx (mem_legacySettings_of_qml hqml)
            · exact if_neg hx
        · exact storeAsks_of_notMem hwritten
      rw [hasks _ (.inl rfl), hasks _ (.inr rfl)]
      exact ite_self _
    · exact migratedRw_of_no_setting fun x hk => hsetting ⟨x, hk⟩

/-! ## The migration -/

/-- What is asked of previews and repeated migrations. -/
structure MigrationSound (api : CoreApi) (qt : QVariantApi V) (args : ArgsManager) (qml bitcoin_qt : QSettings V) :
    Prop where
  preview_stores : (migrateCoreSettings api qt args qml bitcoin_qt .preview).qml = qml ∧
    (migrateCoreSettings api qt args qml bitcoin_qt .preview).bitcoin_qt = bitcoin_qt
  preview_args : (migrateCoreSettings api qt args qml bitcoin_qt .preview).args =
    (migrateCoreSettings api qt args qml bitcoin_qt .persist).args
  preview_then_persist :
    let preview := migrateCoreSettings api qt args qml bitcoin_qt .preview
    let once := migrateCoreSettings api qt args qml bitcoin_qt .persist
    let after := migrateCoreSettings api qt preview.args preview.qml preview.bitcoin_qt .persist
    after.args = once.args ∧ after.qml = once.qml ∧ after.bitcoin_qt = once.bitcoin_qt
  persist_twice :
    let once := migrateCoreSettings api qt args qml bitcoin_qt .persist
    let twice := migrateCoreSettings api qt once.args once.qml once.bitcoin_qt .persist
    twice.args = once.args ∧ twice.qml = once.qml ∧ twice.bitcoin_qt = once.bitcoin_qt
  given_kept (mode : MigrationMode) (k : Name) : Given api args qml bitcoin_qt k →
    (migrateCoreSettings api qt args qml bitcoin_qt mode).args.rw_settings k = args.rw_settings k

section Path

variable (hpath : args.settings_path = true)
include hpath

theorem migrateCoreSettings_qml :
    (migrateCoreSettings api qt args qml bitcoin_qt mode).qml = leftSettings api qt ⟨false, qml⟩ mode := by
  unfold migrateCoreSettings
  rw [hpath]
  exact migrateStore_settings_eq ⟨false, qml⟩

theorem migrateCoreSettings_bitcoin_qt :
    (migrateCoreSettings api qt args qml bitcoin_qt mode).bitcoin_qt =
      leftSettings api qt ⟨true, bitcoin_qt⟩ mode := by
  unfold migrateCoreSettings
  rw [hpath]
  exact migrateStore_settings_eq ⟨true, bitcoin_qt⟩

theorem migrateCoreSettings_path :
    (migrateCoreSettings api qt args qml bitcoin_qt mode).args.settings_path = true := by
  rw [Startup.migrateCoreSettings_args]
  exact hpath

theorem preview_stores_kept : (migrateCoreSettings api qt args qml bitcoin_qt .preview).qml = qml ∧
    (migrateCoreSettings api qt args qml bitcoin_qt .preview).bitcoin_qt = bitcoin_qt := by
  rw [migrateCoreSettings_qml hpath, migrateCoreSettings_bitcoin_qt hpath, leftSettings_preview, leftSettings_preview]
  exact ⟨rfl, rfl⟩

theorem persist_after_preview :
    let preview := migrateCoreSettings api qt args qml bitcoin_qt .preview
    let once := migrateCoreSettings api qt args qml bitcoin_qt .persist
    let after := migrateCoreSettings api qt preview.args preview.qml preview.bitcoin_qt .persist
    after.args = once.args ∧ after.qml = once.qml ∧ after.bitcoin_qt = once.bitcoin_qt := by
  obtain ⟨hqml, hqt⟩ := @preview_stores_kept V api qt args qml bitcoin_qt hpath
  dsimp only
  rw [hqml, hqt]
  refine ⟨?_, ?_, ?_⟩
  · have hsame : (migrateCoreSettings api qt args qml bitcoin_qt .preview).args =
        (migrateCoreSettings api qt args qml bitcoin_qt .persist).args := migrateCoreSettings_mode args qml bitcoin_qt
    rw [Startup.migrateCoreSettings_args, migratedRw_over _ hpath, ← hsame]
    rfl
  · rw [migrateCoreSettings_qml (migrateCoreSettings_path hpath), migrateCoreSettings_qml hpath]
  · rw [migrateCoreSettings_bitcoin_qt (migrateCoreSettings_path hpath), migrateCoreSettings_bitcoin_qt hpath]

theorem persist_after_persist :
    let once := migrateCoreSettings api qt args qml bitcoin_qt .persist
    let twice := migrateCoreSettings api qt once.args once.qml once.bitcoin_qt .persist
    twice.args = once.args ∧ twice.qml = once.qml ∧ twice.bitcoin_qt = once.bitcoin_qt := by
  dsimp only
  refine ⟨?_, ?_, ?_⟩
  · rw [Startup.migrateCoreSettings_args, migratedRw_again args _ qml bitcoin_qt hpath]
  · rw [migrateCoreSettings_qml (migrateCoreSettings_path hpath), migrateCoreSettings_qml hpath,
      leftSettings_persist_twice]
  · rw [migrateCoreSettings_bitcoin_qt (migrateCoreSettings_path hpath), migrateCoreSettings_bitcoin_qt hpath,
      leftSettings_persist_twice]

end Path

/-- Previews are faithful, a repeated migration does nothing, and what is given stays. -/
theorem migration_sound (api : CoreApi) (qt : QVariantApi V) (args : ArgsManager)
    (qml bitcoin_qt : QSettings V) : MigrationSound api qt args qml bitcoin_qt := by
  cases hpath : args.settings_path with
  | false =>
    have hnothing : ∀ mode, migrateCoreSettings api qt args qml bitcoin_qt mode = ⟨args, qml, bitcoin_qt, false⟩ :=
      fun mode => if_pos (by rw [hpath]; rfl)
    exact ⟨by simp [hnothing], by simp [hnothing], by simp [hnothing], by simp [hnothing],
      fun _ _ => migratedRw_of_given⟩
  | true =>
    exact ⟨preview_stores_kept hpath, migrateCoreSettings_mode args qml bitcoin_qt, persist_after_preview hpath,
      persist_after_persist hpath, fun _ _ => migratedRw_of_given⟩

end Remigration

/-! ## A size that is overwritten -/

/-- Only the size for when pruning is on is saved. -/
def savedPruneSize : ArgsManager :=
  { emptyArgs with rw_settings := fun k => if k = .prev .prune then some (.str "1907".toList) else none }

theorem migration_overwrites_prev :
    savedPruneSize.rw_settings (.prev .prune) = some (.str "1907".toList) ∧
      (migrateCoreSettings plainCore plainVariant savedPruneSize (oneKey .nPruneSize 5) (fun _ => none)
        .persist).args.rw_settings (.prev .prune) = some (.str "4768".toList) := by
  decide +kernel

end GuiQml.Settings
