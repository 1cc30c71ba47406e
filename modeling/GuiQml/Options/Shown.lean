import GuiQml.Options.Model

/-!
# What is shown follows the store

The commands that are outstanding carry the last revisions, so the one whose snapshot is taken over is the
last of all, and it was read after every other command. A command that throws brings no snapshot: the last
command is to return.
-/

namespace GuiQml.Options

open GuiQml.Settings Pipelines Reach LastWrite

variable {api : CoreApi} {normalizeCommandPath : Str → Str} {readSnapshot : Store → Snapshot}

/-! ## A change that cannot be saved -/

section Saved

variable {attempt : Attempt} {keys : List Name} {mutation : ArgsManager → ArgsManager × Bool}

/-- A mutation writes to the settings under `keys` and nowhere else. -/
def WritesUnder (keys : List Name) (mutation : ArgsManager → ArgsManager × Bool) : Prop :=
  ∀ args, ∃ writes : List RwWrite, (∀ w ∈ writes, w.1 ∈ keys) ∧
    (mutation args).1 = { args with rw_settings := apply args.rw_settings writes }

theorem apply_outside {writes : List RwWrite} (hkeys : ∀ w ∈ writes, w.1 ∈ keys) {rw : RwSettings} {key : Name}
    (hkey : key ∉ keys) : apply rw writes key = rw key := by
  have hnone : last writes key = none := last_eq_none fun value hmem => hkey (hkeys _ hmem)
  rw [apply_eq_last, hnone]
  rfl

theorem WritesUnder.restore (h : WritesUnder keys mutation) (args : ArgsManager) :
    restore keys args (mutation args).1 = args := by
  obtain ⟨writes, hkeys, hargs⟩ := h args
  rw [hargs]
  unfold Options.restore
  congr 1
  funext key
  split
  · rfl
  · exact apply_outside hkeys ‹_›

theorem persistSettings_failed (h : WritesUnder keys mutation) {args : ArgsManager} {error : String}
    (herror : (persistSettings attempt args keys mutation).2 = some error) :
    (persistSettings attempt args keys mutation).1 = args := by
  revert herror
  fun_cases persistSettings attempt args keys mutation with
  | case1 what => exact fun _ => h.restore args
  | case2 _ written accepted hmutation =>
    intro _
    have := h.restore args
    rwa [hmutation] at this
  | case3 => exact fun herror => nomatch herror
  | case4 _ written accepted hmutation =>
    intro _
    have := h.restore args
    rwa [hmutation] at this

/-- The call that an attempt is, whose change writes `writes` and is accepted or not. -/
def Attempt.call (attempt : Attempt) (writes : List RwWrite) (accepted : Bool) : PersistRun where
  during := writes
  mutation := match attempt.mutation_throws with
    | some what => .threw (some what)
    | none => .returned accepted
  afterMutation := []
  duringFile := []
  file := match attempt.write_errors with
    | none => .written
    | some errors => .failed errors
  late := []

theorem rollBack_quiet {args written : ArgsManager} :
    PersistSettings.rollBack api keys args.rw_settings written.rw_settings written.rw_settings =
      (Options.restore keys args written).rw_settings := by
  funext key
  rw [rollBack_apply]
  simp [Options.restore]

theorem fail_quiet {args written : ArgsManager} {failure : String} :
    PersistSettings.fail api keys args.rw_settings written.rw_settings written.rw_settings failure =
      ((failed keys args written failure).1.rw_settings, false, (failed keys args written failure).2.getD "") := by
  unfold PersistSettings.fail failed
  rw [rollBack_quiet]
  rfl

/-- What is saved or taken back is what `PersistSettings` does while nobody else writes. -/
theorem persistSettings_eq_call {args : ArgsManager} {writes : List RwWrite}
    (hargs : (mutation args).1 = { args with rw_settings := apply args.rw_settings writes }) :
    Settings.persistSettings api keys args.rw_settings (attempt.call writes (mutation args).2) =
      ((persistSettings attempt args keys mutation).1.rw_settings,
        (persistSettings attempt args keys mutation).2.isNone,
        (persistSettings attempt args keys mutation).2.getD "") := by
  have hwritten : apply args.rw_settings writes = (mutation args).1.rw_settings := by rw [hargs]
  unfold Settings.persistSettings persistSettings Attempt.call
  simp only [hwritten, apply_nil]
  cases attempt.mutation_throws with
  | some what => exact fail_quiet
  | none =>
    rcases mutation args with ⟨written, _ | _⟩
    · exact fail_quiet
    · cases attempt.write_errors with
      | none => rfl
      | some errors => exact fail_quiet

theorem writesUnder_override (name : Name) (value : SettingsValue) :
    WritesUnder (overrideKeys name) (fun args => writeCoreSettingOverride api args name value) :=
  fun args => (covers api).override args name value

theorem writesUnder_session (session : Session) (name : Name) :
    WritesUnder (runtimeChangeKeys name) (fun args => session.writeToArgs api args name) :=
  fun args => (covers api).session session args name

/-- A command with an error leaves the store alone, but for a language that only Core has saved. -/
theorem run_of_error {command : Command} {store : Store}
    (herror : (command.run api attempt store).2 ≠ "") :
    (command.run api attempt store).1 = store ∨ ∃ new_language, command = .language new_language := by
  have hfailed : ∀ {keys mutation}, WritesUnder keys mutation →
      ∀ {args : ArgsManager} {error : Option String},
        (persistSettings attempt store.args keys mutation) = (args, error) → error.getD "" ≠ "" →
          args = store.args ∧ error.isNone = false := by
    intro keys mutation hwrites args error hpersist herror
    cases error with
    | none => exact absurd rfl herror
    | some error =>
      have := persistSettings_failed hwrites (congrArg Prod.snd hpersist)
      exact ⟨by rw [← this, hpersist], rfl⟩
  revert herror
  fun_cases Command.run api attempt store command with
  | case1 => exact fun h => absurd rfl h
  | case2 session name args error hpersist =>
    intro herror
    obtain ⟨rfl, -⟩ := hfailed (writesUnder_session session name) hpersist herror
    exact .inl rfl
  | case3 name value args error hpersist args' =>
    intro herror
    obtain ⟨rfl, hsome⟩ := hfailed (writesUnder_override name value) hpersist herror
    refine .inl ?_
    simp [args', hsome]
  | case4 => exact fun _ => .inl rfl
  | case5 normalized_path path_error hpath value args error hpersist args' =>
    intro herror
    obtain ⟨rfl, hsome⟩ := hfailed (writesUnder_override .signer value) hpersist herror
    refine .inl ?_
    simp [args', hsome]
  | case6 => exact fun _ => .inr ⟨_, rfl⟩
  | case7 => exact fun _ => .inr ⟨_, rfl⟩
  | case8 key value saved =>
    intro herror
    refine .inl ?_
    by_cases hsynced : attempt.gui_synced = true
    · exact absurd (by simp [saved, saveGuiSetting, hsynced]) herror
    · simp [saved, saveGuiSetting, hsynced]

end Saved

/-! ## What the operations of the model keep -/

namespace OptionsQmlModel

variable (m : OptionsQmlModel)

@[simp] theorem shown_refresh : m.refreshCoreSettingStatuses.shown = m.shown := rfl

@[simp] theorem shown_setError (error : String) : (m.setError error).shown = m.shown := rfl

@[simp] theorem shown_setPending (pending : Bool) : (m.setPending pending).shown = m.shown := by
  unfold setPending
  split <;> rfl

@[simp] theorem m_pending_setPending (pending : Bool) : (m.setPending pending).m_pending = pending := by
  unfold setPending
  split
  · assumption
  · rfl

@[simp] theorem m_pending_commands_setPending (pending : Bool) :
    (m.setPending pending).m_pending_commands = m.m_pending_commands := by
  unfold setPending
  split <;> rfl

@[simp] theorem m_command_revision_setPending (pending : Bool) :
    (m.setPending pending).m_command_revision = m.m_command_revision := by
  unfold setPending
  split <;> rfl

/-- The numbers that count commands are the same. -/
structure SameCommands (m m' : OptionsQmlModel) : Prop where
  pending : m.m_pending = m'.m_pending
  pending_commands : m.m_pending_commands = m'.m_pending_commands
  command_revision : m.m_command_revision = m'.m_command_revision

theorem commandDone_spec : m.commandDone.shown = m.shown ∧
    m.commandDone.m_command_revision = m.m_command_revision ∧
    m.commandDone.m_pending_commands = m.m_pending_commands - 1 ∧
    m.commandDone.m_pending = (m.m_pending && 0 < m.m_pending_commands - 1) := by
  unfold commandDone
  dsimp only
  split
  · next h => simp [h]; rfl
  · next h =>
    have : 0 < m.m_pending_commands - 1 := Nat.pos_of_ne_zero h
    exact ⟨rfl, rfl, rfl, by simp [this]⟩

end OptionsQmlModel

open OptionsQmlModel

/-! ## Edits -/

/-- What is shown is as it was, or a command is given. -/
def Edited (s s' : System) : Prop :=
  ∃ m, SameCommands m s.model ∧ (s' = { s with model := m } ∧ m.shown = s.model.shown ∨
    ∃ command, s' = { s with model := m }.runCommand command)

namespace Edited

variable (s : System)

theorem unchanged : Edited s s := ⟨s.model, ⟨rfl, rfl, rfl⟩, .inl ⟨rfl, rfl⟩⟩

theorem setCoreInt (name : Name) (get : OptionsQmlModel → Int)
    (set : Int → OptionsQmlModel → OptionsQmlModel) (value : Int)
    (hsame : SameCommands (set value s.model) s.model)
    (hcan : (set value s.model).canEditCoreSetting name = s.model.canEditCoreSetting name) :
    Edited s (s.setCoreInt name get set value) := by
  unfold System.setCoreInt
  split
  · exact unchanged s
  next hedit =>
  split
  · exact unchanged s
  · refine ⟨set value s.model, hsame, .inr ⟨.override name (.int value), ?_⟩⟩
    unfold System.writeCoreSettingOverride
    rw [if_neg (by rw [hcan]; exact hedit)]

theorem setGuiValue {α : Type} [DecidableEq α] (key : GuiKey) (gui : α → GuiValue)
    (get : OptionsQmlModel → α) (set : α → OptionsQmlModel → OptionsQmlModel) (value : α)
    (hsame : SameCommands (set value s.model) s.model)
    (hready : (set value s.model).m_ready = s.model.m_ready) :
    Edited s (s.setGuiValue key gui get set value) := by
  unfold System.setGuiValue
  split
  · exact unchanged s
  next hedit =>
  refine ⟨set value s.model, hsame, .inr ⟨.gui key (gui value), ?_⟩⟩
  unfold System.persistGuiSetting
  have hset : s.model.m_ready = true := by
    by_contra hnot
    simp [hnot] at hedit
  rw [if_neg (by simp [hready, hset])]

theorem changeCore (hdefault : DefaultProxyValid api) (change : CoreChange) :
    Edited s (s.changeCore api change) := by
  unfold System.changeCore System.applyRuntimeCoreChange
  refine ⟨{ s.model with m_core_settings := (change.apply api s.model.m_core_settings).1 },
    ⟨rfl, rfl, rfl⟩, ?_⟩
  dsimp only
  split
  · next hquiet =>
    refine .inl ⟨rfl, ?_⟩
    have hvalues : (change.apply api s.model.m_core_settings).1.m_values =
        s.model.m_core_settings.m_values := by
      cases haccepted : (change.apply api s.model.m_core_settings).2 with
      | false => exact CoreChange.refused hdefault haccepted
      | true =>
        rw [haccepted] at hquiet
        simpa using Eq.symm (by simpa using hquiet)
    simp [shown, hvalues]
  · exact .inr ⟨_, rfl⟩

end Edited

theorem edited_edit (hdefault : DefaultProxyValid api) (s : System) (e : Edit) :
    Edited s (edit api normalizeCommandPath s e) := by
  cases e with
  | core change => exact .changeCore s hdefault change
  | setDbcacheSizeMiB | setMaxMempoolSizeMB | setScriptThreads =>
    dsimp only [edit, System.setDbcacheSizeMiB, System.setMaxMempoolSizeMB, System.setScriptThreads]
    apply Edited.setCoreInt
    · exact ⟨rfl, rfl, rfl⟩
    · rfl
  | setExternalSignerPath path =>
    dsimp only [edit, System.setExternalSignerPath]
    split
    · exact .unchanged s
    split
    · exact .unchanged s
    · exact ⟨{ s.model with m_external_signer_path := normalizeCommandPath path }, ⟨rfl, rfl, rfl⟩,
        .inr ⟨_, rfl⟩⟩
  | setLanguage new_language =>
    dsimp only [edit, System.setLanguage]
    split
    · exact .unchanged s
    · exact ⟨{ s.model with m_language := new_language }, ⟨rfl, rfl, rfl⟩, .inr ⟨_, rfl⟩⟩
  | setDisplayUnit | setThirdPartyTransactionUrls | setMoneyFontChoice =>
    dsimp only [edit, System.setDisplayUnit, System.setThirdPartyTransactionUrls,
      System.setMoneyFontChoice]
    apply Edited.setGuiValue
    · exact ⟨rfl, rfl, rfl⟩
    · rfl

/-! ## The invariant -/

/-- The commands that are outstanding are the last ones given, and what is shown, or will be taken over,
is of the store as the last command left it. -/
structure Inv (readSnapshot : Store → Snapshot) (s : System) : Prop where
  count : s.model.m_pending_commands = s.commands.outstanding
  pending : s.model.m_pending = decide (0 < s.commands.outstanding)
  numbered : s.commands.Numbered (·.revision) (·.revision) s.model.m_command_revision
  ran : s.ran + s.commands.waiting.length = s.model.m_command_revision
  read_after : ∀ f ∈ s.commands.returned, f.ran = f.revision
  newest : ∀ f ∈ s.commands.returned, f.revision = s.model.m_command_revision →
    ∀ snapshot error, f.outcome = .returned snapshot error →
      ∃ store ∈ s.stores, snapshot = readSnapshot store
  settled : s.commands.outstanding = 0 → ∃ store ∈ s.stores, s.model.shown = readSnapshot store

namespace Inv

variable {s : System}

theorem start (store : Store) : Inv readSnapshot (start api store) where
  count := rfl
  pending := rfl
  numbered := ⟨1, rfl, rfl⟩
  ran := rfl
  read_after := fun _ hf => nomatch hf
  newest := fun _ hf => nomatch hf
  settled := fun h => nomatch h

theorem unchanged (h : Inv readSnapshot s) {m : OptionsQmlModel} (hm : SameCommands m s.model)
    (hshown : m.shown = s.model.shown) : Inv readSnapshot { s with model := m } where
  count := hm.pending_commands.trans h.count
  pending := hm.pending.trans h.pending
  numbered := by
    dsimp only
    rw [hm.command_revision]
    exact h.numbered
  ran := h.ran.trans hm.command_revision.symm
  read_after := h.read_after
  newest := fun f hf hlast => h.newest f hf (hlast.trans hm.command_revision)
  settled := fun hidle => by
    dsimp only
    rw [hshown]
    exact h.settled hidle

theorem runCommand (h : Inv readSnapshot s) {m : OptionsQmlModel} (hm : SameCommands m s.model)
    (command : Command) : Inv readSnapshot ({ s with model := m }.runCommand command) := by
  have hrevision : ({ s with model := m }.runCommand command).model.m_command_revision =
      s.model.m_command_revision + 1 := by
    unfold System.runCommand
    dsimp only
    rw [m_command_revision_setPending, ← hm.command_revision]
    split <;> rfl
  have hcount : ({ s with model := m }.runCommand command).commands.outstanding =
      s.commands.outstanding + 1 := Pipeline.outstanding_submit ..
  constructor
  case count =>
    rw [hcount, ← h.count, ← hm.pending_commands]
    unfold System.runCommand
    dsimp only
    rw [m_pending_commands_setPending]
    split <;> rfl
  case pending =>
    rw [hcount]
    simp [System.runCommand]
  case numbered =>
    rw [hrevision]
    refine h.numbered.submit ?_
    dsimp only
    rw [← hm.command_revision]
    split <;> rfl
  case ran =>
    rw [hrevision, ← h.ran]
    simp [System.runCommand, Pipeline.submit, Nat.add_assoc]
  case read_after => exact h.read_after
  case newest =>
    intro f hf hlast
    have hle := h.numbered.returned_le hf
    rw [hrevision] at hlast
    omega
  case settled =>
    intro hidle
    rw [hcount] at hidle
    cases hidle

theorem finish (h : Inv readSnapshot s) {submitted : Submitted} {waiting : List Submitted}
    (hwaiting : s.commands.waiting = submitted :: waiting) {outcome : Outcome} {store : Store}
    (houtcome : ∀ snapshot error, outcome = .returned snapshot error → snapshot = readSnapshot store) :
    Inv readSnapshot (finish s submitted waiting outcome store) := by
  have hcount : (Options.finish s submitted waiting outcome store).commands.outstanding =
      s.commands.outstanding := Pipeline.outstanding_run hwaiting _
  have hran := h.ran
  rw [hwaiting, List.length_cons] at hran
  have hhead := h.numbered.waiting_head hwaiting
  constructor
  case count => exact h.count.trans hcount.symm
  case pending =>
    rw [hcount]
    exact h.pending
  case numbered => exact h.numbered.run hwaiting rfl
  case ran =>
    show s.ran + 1 + waiting.length = s.model.m_command_revision
    omega
  case read_after =>
    intro f hf
    rcases List.mem_append.mp hf with hf | hf
    · exact h.read_after f hf
    · obtain rfl := List.mem_singleton.mp hf
      show s.ran + 1 = submitted.revision
      omega
  case newest =>
    intro f hf hlast snapshot error hreturned
    rcases List.mem_append.mp hf with hf | hf
    · -- An older result is not the newest while a command still waits.
      have hle := h.numbered.returned_le hf
      have : f.revision = s.model.m_command_revision := hlast
      rw [hwaiting, List.length_cons] at hle
      omega
    · obtain rfl := List.mem_singleton.mp hf
      exact ⟨store, List.mem_singleton_self store, houtcome snapshot error hreturned⟩
  case settled =>
    intro hidle
    rw [hcount, Pipeline.outstanding_eq_zero, hwaiting] at hidle
    cases hidle.2

theorem write (h : Inv readSnapshot s) (store : Store) :
    Inv readSnapshot { s with store, stores := s.stores ++ [store] } where
  count := h.count
  pending := h.pending
  numbered := h.numbered
  ran := h.ran
  read_after := h.read_after
  newest := fun f hf hlast snapshot error houtcome => by
    obtain ⟨store, hmem, hread⟩ := h.newest f hf hlast snapshot error houtcome
    exact ⟨store, List.mem_append_left _ hmem, hread⟩
  settled := fun hidle => by
    obtain ⟨store, hmem, hread⟩ := h.settled hidle
    exact ⟨store, List.mem_append_left _ hmem, hread⟩

end Inv

/-! ## Completions -/

theorem complete_eq {s : System} {f : Finished} {returned : List Finished}
    (h : s.commands.returned = f :: returned) :
    complete s = { s with
      model := completed s.model f
      commands := ⟨s.commands.waiting, returned⟩ } := by
  unfold complete
  rw [h]

theorem completed_spec (m : OptionsQmlModel) (f : Finished) :
    (completed m f).shown =
        (match f.outcome with
        | .returned snapshot _ => if f.revision = m.m_command_revision then snapshot else m.shown
        | .threw _ => m.shown) ∧
      (completed m f).m_command_revision = m.m_command_revision ∧
      (completed m f).m_pending_commands = m.m_pending_commands - 1 ∧
      (completed m f).m_pending = (m.m_pending && 0 < m.m_pending_commands - 1) := by
  unfold completed
  cases f.outcome with
  | returned snapshot error =>
    obtain ⟨hshown, hrevision, hcommands, hpending⟩ := commandDone_spec
      (let m := if f.revision = m.m_command_revision then m.applySnapshot snapshot else m
        if error = "" then m else m.setError error)
    unfold commandReturned
    refine ⟨hshown.trans ?_, hrevision.trans ?_, hcommands.trans ?_, hpending.trans ?_⟩
    all_goals
      dsimp only
      split_ifs <;> rfl
  | threw what => exact commandDone_spec (m.setError _)

/-- A command that throws has a newer one behind it. -/
def NewestReturns (s : System) (e : Event) : Prop :=
  e = .complete → ∀ f ∈ s.commands.returned.head?, ∀ what, f.outcome = .threw what →
    f.revision ≠ s.model.m_command_revision

theorem Inv.complete {s : System} (h : Inv readSnapshot s) (hnewest : NewestReturns s .complete) :
    Inv readSnapshot (complete s) := by
  cases hreturned : s.commands.returned with
  | nil =>
    have : Options.complete s = s := by
      unfold Options.complete
      rw [hreturned]
    rwa [this]
  | cons f returned =>
    rw [complete_eq hreturned]
    obtain ⟨hshown, hrevision, hcommands, hpending⟩ := completed_spec s.model f
    have hcount := Pipeline.outstanding_deliver hreturned
    constructor
    case count =>
      rw [hcommands, h.count, ← hcount]
      rfl
    case pending =>
      rw [hpending, h.pending, h.count, ← hcount]
      simp
    case numbered =>
      dsimp only
      rw [hrevision]
      exact h.numbered.deliver hreturned
    case ran => exact h.ran.trans hrevision.symm
    case read_after => exact fun g hg => h.read_after g (hreturned ▸ List.mem_cons_of_mem f hg)
    case newest =>
      intro g hg hlast
      exact h.newest g (hreturned ▸ List.mem_cons_of_mem f hg) (hlast.trans hrevision)
    case settled =>
      intro hidle
      obtain ⟨rfl, hwaiting⟩ := Pipeline.outstanding_eq_zero.mp hidle
      have hlast := (h.numbered.newest_iff hreturned).mpr ⟨rfl, hwaiting⟩
      have hmem : f ∈ s.commands.returned := hreturned ▸ List.mem_cons_self ..
      dsimp only
      rw [hshown]
      cases houtcome : f.outcome with
      | returned snapshot error =>
        dsimp only
        rw [if_pos hlast]
        exact h.newest f hmem hlast snapshot error houtcome
      | threw what => exact absurd hlast (hnewest rfl f (by rw [hreturned]; rfl) what houtcome)

theorem inv_run (hdefault : DefaultProxyValid api) {store : Store} {s : System}
    (h : Reaches (step api normalizeCommandPath readSnapshot) NewestReturns (start api store) s) :
    Inv readSnapshot s := by
  refine h.invariant (Inv.start store) fun s e hinv hallowed => ?_
  cases e with
  | edit e =>
    have hedited : Edited s (edit api normalizeCommandPath s e) := edited_edit hdefault s e
    obtain ⟨m, hm, ⟨hedit, hshown⟩ | ⟨command, hedit⟩⟩ := hedited
    · show Inv readSnapshot (edit api normalizeCommandPath s e)
      rw [hedit]
      exact hinv.unchanged hm hshown
    · show Inv readSnapshot (edit api normalizeCommandPath s e)
      rw [hedit]
      exact hinv.runCommand hm command
  | work attempt =>
    dsimp only [step]
    split
    · exact hinv
    · next submitted waiting hwaiting =>
      refine hinv.finish hwaiting fun snapshot error houtcome => ?_
      cases houtcome
      rfl
  | throw what left =>
    dsimp only [step]
    split
    · exact hinv
    · next submitted waiting hwaiting =>
      refine hinv.finish hwaiting fun snapshot error houtcome => ?_
      cases houtcome
  | complete => exact hinv.complete hallowed
  | write store => exact hinv.write store

/-! ## What is shown -/

/-- It is pending exactly while a command is outstanding. A snapshot that was read before the command of a
later edit had run changes nothing that is shown. Without a command outstanding, what is shown was in the
store after the last command took effect. -/
structure FollowsStore (readSnapshot : Store → Snapshot) (s : System) : Prop where
  pending : s.model.m_pending = true ↔ 0 < s.commands.outstanding
  later_edit : ∀ f ∈ s.commands.returned.head?, f.ran < s.model.m_command_revision →
    (complete s).model.shown = s.model.shown
  settled : s.commands.outstanding = 0 → ∃ store ∈ s.stores, s.model.shown = readSnapshot store

theorem followsStore_of_newestReturns (hdefault : DefaultProxyValid api) {store : Store} {s : System}
    (h : Reaches (step api normalizeCommandPath readSnapshot) NewestReturns (start api store) s) :
    FollowsStore readSnapshot s := by
  have hinv := inv_run hdefault h
  refine ⟨by simp [hinv.pending], fun f hf hlater => ?_, hinv.settled⟩
  obtain ⟨returned, hreturned⟩ : ∃ returned, s.commands.returned = f :: returned := by
    cases hs : s.commands.returned with
    | nil => simp [hs] at hf
    | cons g returned =>
      rw [hs] at hf
      exact ⟨returned, by rw [Option.some.inj hf]⟩
  rw [hinv.read_after f (hreturned ▸ List.mem_cons_self ..)] at hlater
  rw [complete_eq hreturned]
  dsimp only
  rw [(completed_spec s.model f).1]
  split
  · rw [if_neg (by omega)]
  · rfl

/-- A reader for a store without options, interactions and a chosen data directory. -/
def readPlain (store : Store) : Snapshot where
  core := loadPersistentValues plainCore store.args
  statuses := canEditCoreSetting store.args
  dbcache := (plainCore.settingToInt (store.args.getPersistentSetting .dbcache)).getD 450
  mempool := (plainCore.settingToInt (store.args.getPersistentSetting .maxmempool)).getD 300
  threads := (plainCore.settingToInt (store.args.getPersistentSetting .par)).getD 0
  signer := (plainCore.settingToString (store.args.getPersistentSetting .signer)).getD []
  data_dir := "/data".toList
  default_data_dir := "/data".toList
  custom_data_dir := []
  language := (plainCore.settingToString (store.args.getPersistentSetting .lang)).getD []
  display_unit := match store.gui .DISPLAY_UNIT with | some (.int unit) => unit | _ => 0
  transaction_urls := match store.gui .THIRD_PARTY_TRANSACTION_URLS with | some (.text urls) => urls | _ => []
  money_font := match store.gui .MONEY_FONT_CHOICE with | some (.text font) => font | _ => "embedded".toList

def plainStore : Store := ⟨emptyArgs, fun _ => none⟩

def plainStep : System → Event → System := step plainCore id readPlain

/-- The cache size is edited and saved. -/
theorem followsStore_of_newestReturns_saved :
    FollowsStore readPlain (([.work {}, .complete, .edit (.setDbcacheSizeMiB 500), .work {},
      .complete] : List Event).foldl plainStep (start plainCore plainStore)) := by
  have hstart : Reaches plainStep NewestReturns (start plainCore plainStore) _ := .refl
  have hloaded := (hstart.snoc (.work {}) fun h => nomatch h).snoc .complete fun _ f hf what houtcome => by
    obtain rfl := Option.some.inj hf
    cases houtcome
  have hran := (hloaded.snoc (.edit (.setDbcacheSizeMiB 500)) fun h => nomatch h).snoc (.work {})
    fun h => nomatch h
  refine followsStore_of_newestReturns .plainCore (hran.snoc .complete fun _ f hf what houtcome => ?_)
  obtain rfl := Option.some.inj hf
  cases houtcome

/-- The command of an edit throws before it has saved anything, and the edit is still shown. -/
theorem not_followsStore_after_throw :
    ∃ s, Reaches plainStep (fun _ _ => True) (start plainCore plainStore) s ∧ ¬FollowsStore readPlain s := by
  refine ⟨_, Reaches.events (fun _ _ => trivial) .refl [.work {}, .complete,
    .edit (.setDbcacheSizeMiB 500), .throw none plainStore, .complete], fun h => ?_⟩
  obtain ⟨store, hmem, hshown⟩ := h.settled rfl
  obtain rfl : store = plainStore := List.mem_singleton.mp hmem
  exact absurd (congrArg Snapshot.dbcache hshown) (by decide)

end GuiQml.Options
