import GuiQml.Onboarding.Model
import GuiQml.Settings.RoundTrip

/-!
# What setup shows was checked

One worker does the previews and the storage checks in order, so a storage check that a new selection made
stale comes back before the preview of that selection. It is then not repeated, and only a preview that
succeeds asks for another one.
-/

namespace GuiQml.Onboarding

open GuiQml.Settings Reach

variable {api : CoreApi} {dirs : DataDirs} {m : OnboardingOptionsModel} {s : System}

/-! ## What a preview shows -/

/-- The error of the preview, or its values: those of the settings that are not touched. Pruning may follow
the recommendation instead. -/
def Shows (m : OnboardingOptionsModel) : PreviewOutcome → Prop
  | .threw => m.m_preview_error = "The selected directory could not be checked."
  | .result preview =>
    if preview.ok then
      m.m_preview_error = "" ∧ m.existing_profile = preview.existing_profile ∧
        m.m_assumed_blockchain_size = preview.assumed_blockchain_size ∧
        m.m_assumed_chainstate_size = preview.assumed_chainstate_size ∧
        m.prune_default = preview.core_setting_statuses.prune_default ∧
        m.m_core_settings.m_locked = preview.core_setting_statuses.locked ∧
        ∀ name ∈ onboardingCoreSettingNames, name ≠ .prune → m.m_core_settings.isTouched name = false →
          SameSetting name m.m_core_settings.m_values preview.values
    else m.m_preview_error = preview.error

/-- The settings of `b` are those of `a`, but for some that are touched and pruning. -/
structure Kept (a b : Session) : Prop where
  locked : b.m_locked = a.m_locked
  values : ∀ name ∈ onboardingCoreSettingNames, name ≠ .prune → b.isTouched name = false →
    a.isTouched name = false ∧ SameSetting name b.m_values a.m_values

namespace Kept

theorem refl (a : Session) : Kept a a := ⟨rfl, fun _ _ _ h => ⟨h, sameSetting_refl ..⟩⟩

theorem touched {a : Session} {name : Name} {values : Values}
    (h : ∀ other ∈ onboardingCoreSettingNames, other ≠ name → SameSetting other values a.m_values) :
    Kept a { a.markTouched name with m_values := values } := by
  refine ⟨rfl, fun other hother _ huntouched => ?_⟩
  have huntouched : (a.markTouched name).isTouched other = false := huntouched
  rw [isTouched_markTouched, Bool.or_eq_false_iff] at huntouched
  exact ⟨huntouched.2, h other hother (of_decide_eq_false huntouched.1)⟩

theorem change (hdefault : DefaultProxyValid api) (a : Session) (change : CoreChange) :
    Kept a (change.apply api a).1 := by
  have hrefused := @CoreChange.refused api hdefault a change
  have hchanged : Changed a change.name (change.apply api a) := change.changed a
  generalize change.apply api a = result at hrefused hchanged
  cases hchanged with
  | same => exact refl a
  | @refused values =>
    have hvalues : values = a.m_values := hrefused rfl
    exact ⟨rfl, fun _ _ _ h => ⟨h, by rw [hvalues]; exact sameSetting_refl ..⟩⟩
  | touched _ hothers _ => exact touched fun other _ hne => hothers other hne

theorem recommendation (a : Session) (prune : Bool) (prune_size_gb : Int) (mark_touched : Bool) :
    Kept a (a.changePruneRecommendation prune prune_size_gb mark_touched) := by
  have hkept : ∀ b : Session, b.m_locked = a.m_locked → b.m_values = a.m_values →
      (∀ name ≠ Name.prune, b.isTouched name = a.isTouched name) →
      Kept a { b with m_values := { a.m_values with
        prune, prune_size_gb := if prune then prune_size_gb else a.m_values.prune_size_gb } } := by
    intro b hlocked hvalues htouched
    refine ⟨hlocked, fun name _ hne huntouched => ⟨(htouched name hne).symm.trans huntouched, ?_⟩⟩
    cases name <;> first | exact absurd rfl hne | exact trivial | rfl | exact ⟨rfl, rfl⟩
  cases mark_touched with
  | true =>
    refine hkept (a.markTouched .prune) rfl rfl fun name hne => ?_
    rw [isTouched_markTouched, decide_eq_false hne, Bool.false_or]
  | false =>
    refine hkept (a.clearTouched .prune) rfl rfl fun name hne => ?_
    unfold Session.isTouched Session.clearTouched
    rw [Bool.eq_iff_iff]
    simp [List.mem_erase_of_ne hne]

end Kept

theorem Shows.of_kept {n : OnboardingOptionsModel} {outcome : PreviewOutcome} (h : Shows m outcome)
    (hkept : Kept m.m_core_settings n.m_core_settings) (herror : n.m_preview_error = m.m_preview_error)
    (hprofile : n.existing_profile = m.existing_profile)
    (hblockchain : n.m_assumed_blockchain_size = m.m_assumed_blockchain_size)
    (hchainstate : n.m_assumed_chainstate_size = m.m_assumed_chainstate_size)
    (hprune : n.prune_default = m.prune_default) : Shows n outcome := by
  cases outcome with
  | threw => exact herror.trans h
  | result preview =>
    unfold Shows at h ⊢
    dsimp only at h ⊢
    split
    next hok =>
      rw [if_pos hok] at h
      obtain ⟨h1, h2, h3, h4, h5, h6, hvalues⟩ := h
      refine ⟨herror.trans h1, hprofile.trans h2, hblockchain.trans h3, hchainstate.trans h4,
        hprune.trans h5, hkept.locked.trans h6, fun name hname hne huntouched => ?_⟩
      obtain ⟨huntouched', hsame⟩ := hkept.values name hname hne huntouched
      exact sameSetting_trans hsame (hvalues name hname hne huntouched')
    next hok =>
      rw [if_neg hok] at h
      exact herror.trans h

theorem Shows.changeCore (hdefault : DefaultProxyValid api) {outcome : PreviewOutcome}
    (h : Shows m outcome) (change : CoreChange) : Shows (m.changeCore api change) outcome :=
  h.of_kept (.change hdefault m.m_core_settings change) rfl rfl rfl rfl rfl

theorem Shows.recommend {outcome : PreviewOutcome} (h : Shows m outcome) :
    Shows m.applyAutomaticPruneRecommendation outcome := by
  unfold OnboardingOptionsModel.applyAutomaticPruneRecommendation
  split_ifs
  all_goals first
    | exact h
    | exact h.of_kept (.recommendation ..) rfl rfl rfl rfl rfl

/-! ## The chain -/

/-- Who validated what is shown: a preview of the selection, or the startup status failed after it. -/
def Told (s : System) : Prop :=
  s.startup_failed = true ∨
    ∃ outcome, s.shown = some (s.model.selection, outcome) ∧ Shows s.model outcome

/-- What can be in flight, with the flags that go with it. -/
inductive Chain (s : System) : List Task → Prop
  | idle (hpreview : s.model.m_preview_in_flight = false)
      (hcheck : s.model.m_storage_check_in_flight = false)
      (hpending : s.model.m_preview_pending = false)
      (hstorage : s.model.m_storage_check_pending = false) (htold : Told s) : Chain s []
  | status (id : Nat) (hpreview : s.model.m_preview_in_flight = true)
      (hcheck : s.model.m_storage_check_in_flight = false)
      (hpending : s.model.m_preview_pending = true)
      (hstorage : s.model.m_storage_check_pending = false) : Chain s [.status id]
  | preview (id : Nat) (selection : Selection) (hpreview : s.model.m_preview_in_flight = true)
      (hcheck : s.model.m_storage_check_in_flight = false)
      (hpending : s.model.m_preview_pending = true) (hle : id ≤ s.model.m_preview_request_id)
      (hcurrent : id = s.model.m_preview_request_id → selection = s.model.selection) :
      Chain s [.preview id selection]
  | check (hpreview : s.model.m_preview_in_flight = false)
      (hcheck : s.model.m_storage_check_in_flight = true)
      (hpending : s.model.m_preview_pending = false) (htold : Told s) :
      Chain s [.check s.model.m_storage_request_id s.model.m_data_dir]
  | both (id : Nat) (path : Str) (preview_id : Nat) (selection : Selection)
      (hpreview : s.model.m_preview_in_flight = true)
      (hcheck : s.model.m_storage_check_in_flight = true)
      (hpending : s.model.m_preview_pending = true) (hlt : id < s.model.m_storage_request_id)
      (hle : preview_id ≤ s.model.m_preview_request_id)
      (hcurrent : preview_id = s.model.m_preview_request_id → selection = s.model.selection) :
      Chain s [.check id path, .preview preview_id selection]

theorem Chain.start (dirs : DataDirs) : Chain (start dirs) (start dirs).tasks := .status 1 rfl rfl rfl rfl

/-- A selection asks for another preview and makes what is in flight stale. -/
theorem Chain.select (h : Chain s s.tasks) (data_dir custom : Str) :
    Chain ({ s with
      model := { s.model with
        m_data_dir := data_dir
        m_data_dir_source := .UserSelection
        m_custom_datadir_string := custom }
      startup_failed := false }.refreshPreview)
      ({ s with
        model := { s.model with
          m_data_dir := data_dir
          m_data_dir_source := .UserSelection
          m_custom_datadir_string := custom }
        startup_failed := false }.refreshPreview).tasks := by
  generalize htasks : s.tasks = tasks at h
  cases h with
  | idle hpreview hcheck hpending hstorage htold =>
    simp only [System.refreshPreview, System.startPreview, hpreview]
    exact .preview _ _ rfl hcheck rfl (Nat.le_refl _) fun _ => rfl
  | status id hpreview hcheck hpending hstorage =>
    simp only [System.refreshPreview, hpreview]
    exact .status id rfl hcheck rfl hstorage
  | preview id selection hpreview hcheck hpending hle hcurrent =>
    simp only [System.refreshPreview, hpreview]
    exact .preview id selection rfl hcheck rfl (Nat.le_succ_of_le hle) fun heq =>
      absurd heq (Nat.ne_of_lt (Nat.lt_succ_of_le hle))
  | check hpreview hcheck hpending htold =>
    simp only [System.refreshPreview, System.startPreview, hpreview]
    exact .both _ _ _ _ rfl hcheck rfl (Nat.lt_succ_self _) (Nat.le_refl _) fun _ => rfl
  | both id path preview_id selection hpreview hcheck hpending hlt hle hcurrent =>
    simp only [System.refreshPreview, hpreview]
    exact .both id path preview_id selection rfl hcheck rfl (Nat.lt_succ_of_lt hlt)
      (Nat.le_succ_of_le hle) fun heq => absurd heq (Nat.ne_of_lt (Nat.lt_succ_of_le hle))

theorem Chain.startPreview (hcheck : s.model.m_storage_check_in_flight = false)
    (hpending : s.model.m_preview_pending = true) (htasks : s.tasks = []) :
    Chain s.startPreview s.startPreview.tasks := by
  unfold System.startPreview
  rw [htasks]
  exact .preview _ _ rfl hcheck hpending (Nat.le_refl _) fun _ => rfl

theorem Chain.statusReturned (h : Chain s s.tasks) {id : Nat} {tasks : List Task}
    (htasks : s.tasks = .status id :: tasks) (status : OnboardingStartupStatus) :
    Chain ({ s with tasks }.statusReturned dirs id status)
      ({ s with tasks }.statusReturned dirs id status).tasks := by
  rw [htasks] at h
  cases h with
  | status _ hpreview hcheck hpending hstorage =>
    unfold System.statusReturned
    dsimp only
    split
    · exact .startPreview hcheck hpending rfl
    split
    · exact .idle rfl hcheck rfl hstorage (.inl rfl)
    · exact .startPreview hcheck hpending rfl

theorem Chain.statusThrew (h : Chain s s.tasks) {id : Nat} {tasks : List Task}
    (htasks : s.tasks = .status id :: tasks) :
    Chain ({ s with tasks }.statusThrew) ({ s with tasks }.statusThrew).tasks := by
  rw [htasks] at h
  cases h with
  | status _ hpreview hcheck hpending hstorage => exact .idle rfl hcheck rfl hstorage (.inl rfl)

theorem sameSetting_applyPreview (session : Session) (values : Values) (locked : List Name) {name : Name}
    (huntouched : session.isTouched name = false) :
    SameSetting name (session.applyPreviewValuesPreservingTouched values locked).m_values values := by
  cases name with
  | prune | proxy | onion =>
    unfold Session.applyPreviewValuesPreservingTouched
    rw [huntouched]
    exact ⟨rfl, rfl⟩
  | listen | natpmp | server =>
    unfold Session.applyPreviewValuesPreservingTouched
    rw [huntouched]
    rfl
  | _ => trivial

theorem applyPreview_ok (hcheck : s.model.m_storage_check_in_flight = false) {preview : PreviewResult}
    (hok : preview.ok = true) : ∃ m, s.applyPreview preview = { s with
        model := m, tasks := s.tasks ++ [.check m.m_storage_request_id m.m_data_dir] } ∧
      m.m_preview_in_flight = s.model.m_preview_in_flight ∧ m.m_storage_check_in_flight = true ∧
      m.selection = s.model.selection ∧ Shows m (.result preview) := by
  have hrequest : ∀ m : OnboardingOptionsModel, m.m_storage_check_in_flight = false →
      { s with model := m }.requestStorageCheck = { s with
        model := { m with
          m_storage_request_id := m.m_storage_request_id + 1
          m_storage_check_path := m.m_data_dir
          m_storage_check_pending := true
          m_storage_check_in_flight := true }
        tasks := s.tasks ++ [.check (m.m_storage_request_id + 1) m.m_data_dir] } := by
    intro m hm
    unfold System.requestStorageCheck
    dsimp only
    rw [if_pos (by simp [hm])]
    rfl
  unfold System.applyPreview
  rw [if_neg (by simp [hok])]
  dsimp only
  split
  · refine ⟨_, hrequest _ (by exact hcheck), rfl, rfl, rfl, ?_⟩
    unfold Shows
    dsimp only
    rw [if_pos hok]
    exact ⟨rfl, rfl, rfl, rfl, rfl, rfl, fun name _ _ huntouched =>
      sameSetting_applyPreview _ _ _ huntouched⟩
  · refine ⟨_, hrequest _ (by exact hcheck), rfl, rfl, rfl, ?_⟩
    unfold Shows
    dsimp only
    rw [if_pos hok]
    exact ⟨rfl, rfl, rfl, rfl, rfl, rfl, fun name _ _ huntouched =>
      sameSetting_applyPreview _ _ _ huntouched⟩

/-- The preview that is asked for fails only where no storage check is shown as pending. -/
def Inconclusive (s : System) : Prop :=
  ∀ id selection tasks, s.tasks = .preview id selection :: tasks → id = s.model.m_preview_request_id →
    s.model.m_storage_check_pending = false

theorem Chain.previewDone (h : Chain s s.tasks) {id : Nat} {selection : Selection} {tasks : List Task}
    (htasks : s.tasks = .preview id selection :: tasks) {outcome : PreviewOutcome}
    (hfails : (∀ preview, outcome = .result preview → preview.ok = false) → Inconclusive s) :
    Chain ({ s with tasks }.previewDone id selection outcome)
      ({ s with tasks }.previewDone id selection outcome).tasks := by
  have htasks' := htasks
  rw [htasks] at h
  cases h with
  | preview _ _ hpreview hcheck hpending hle hcurrent =>
    unfold System.previewDone
    dsimp only
    split
    · exact .startPreview hcheck hpending rfl
    next hid =>
    have hid : id = s.model.m_preview_request_id := not_not.mp hid
    have hselection := hcurrent hid
    cases outcome with
    | threw =>
      have hstorage := hfails (fun _ h => nomatch h) id selection _ htasks' hid
      exact .idle rfl hcheck rfl hstorage (.inr ⟨.threw, by rw [hselection]; rfl, rfl⟩)
    | result preview =>
      dsimp only
      cases hok : preview.ok with
      | false =>
        unfold System.applyPreview
        rw [if_pos (by simp [hok])]
        have hstorage := hfails (fun _ h => by cases h; exact hok) id selection _ htasks' hid
        refine .idle rfl hcheck rfl hstorage (.inr ⟨.result preview, by rw [hselection]; rfl, ?_⟩)
        unfold Shows
        dsimp only
        rw [if_neg (by simp [hok])]
      | true =>
        obtain ⟨m, happly, hin_flight, hchecking, hsame, hshows⟩ := applyPreview_ok
          (s := { s with model := { s.model with m_preview_in_flight := false }, tasks := [] }) hcheck hok
        rw [happly]
        have hshown : selection = m.selection := hselection.trans hsame.symm
        exact .check hin_flight hchecking rfl (.inr ⟨.result preview, by rw [hshown]; rfl, hshows⟩)

theorem recommend_eq (m : OnboardingOptionsModel) : ∃ session auto_recommended,
    m.applyAutomaticPruneRecommendation =
      { m with m_core_settings := session, m_prune_auto_recommended := auto_recommended } := by
  unfold OnboardingOptionsModel.applyAutomaticPruneRecommendation
  split_ifs
  all_goals exact ⟨_, _, rfl⟩

/-- What is shown stays told when the storage fields and the settings of the user change. -/
theorem Told.of_shows {s' : System} (h : Told s) (hfailed : s'.startup_failed = s.startup_failed)
    (hshown : s'.shown = s.shown) (hselection : s'.model.selection = s.model.selection)
    (hshows : ∀ outcome, Shows s.model outcome → Shows s'.model outcome) : Told s' := by
  rcases h with h | ⟨outcome, h, houtcome⟩
  · exact .inl (hfailed.trans h)
  · exact .inr ⟨outcome, by rw [hshown, h, hselection], hshows outcome houtcome⟩

theorem Chain.checkDone (h : Chain s s.tasks) {id : Nat} {path : Str} {tasks : List Task}
    (htasks : s.tasks = .check id path :: tasks) (result : StorageSpaceResult) :
    Chain ({ s with tasks }.applyStorageCheckResult id result)
      ({ s with tasks }.applyStorageCheckResult id result).tasks := by
  rw [htasks] at h
  cases h with
  | check hpreview hcheck hpending htold =>
    unfold System.applyStorageCheckResult
    dsimp only
    rw [if_neg (not_not.mpr rfl)]
    -- The model with the result of the check, before the recommendation.
    let m : OnboardingOptionsModel := { s.model with
      m_storage_check_in_flight := false
      m_storage_check_pending := false
      m_storage_result_valid := result.ok
      m_storage_available_bytes := if result.ok then result.available_bytes else 0
      m_storage_path_message := result.message
      m_storage_error_text := if result.ok then "" else result.message }
    change Chain { s with model := m.applyAutomaticPruneRecommendation, tasks := [] } []
    have hm : ∀ outcome, Shows s.model outcome → Shows m.applyAutomaticPruneRecommendation outcome :=
      fun outcome h => (h.of_kept (n := m) (.refl _) rfl rfl rfl rfl rfl).recommend
    obtain ⟨session, auto_recommended, heq⟩ := recommend_eq m
    rw [heq] at hm ⊢
    exact .idle hpreview rfl hpending rfl (htold.of_shows rfl rfl rfl hm)
  | both _ _ preview_id selection hpreview hcheck hpending hlt hle hcurrent =>
    unfold System.applyStorageCheckResult
    dsimp only
    rw [if_pos (Nat.ne_of_lt hlt), if_neg (by simp [hpending])]
    exact .preview preview_id selection hpreview rfl hpending hle hcurrent

theorem Chain.changeCore (h : Chain s s.tasks) (hdefault : DefaultProxyValid api) (change : CoreChange) :
    Chain { s with model := s.model.changeCore api change } s.tasks := by
  have htold (h : Told s) : Told { s with model := s.model.changeCore api change } :=
    h.of_shows rfl rfl rfl fun _ h => h.changeCore hdefault change
  generalize s.tasks = tasks at h
  cases h with
  | idle hpreview hcheck hpending hstorage h => exact .idle hpreview hcheck hpending hstorage (htold h)
  | status id hpreview hcheck hpending hstorage => exact .status id hpreview hcheck hpending hstorage
  | preview id selection hpreview hcheck hpending hle hcurrent =>
    exact .preview id selection hpreview hcheck hpending hle hcurrent
  | check hpreview hcheck hpending h => exact .check hpreview hcheck hpending (htold h)
  | both id path preview_id selection hpreview hcheck hpending hlt hle hcurrent =>
    exact .both id path preview_id selection hpreview hcheck hpending hlt hle hcurrent

/-! ## Runs -/

/-- The events that bring a preview that fails. -/
def Event.Fails : Event → Prop
  | .previewReturned preview => preview.ok = false
  | .previewThrew => True
  | _ => False

/-- A preview fails only while no storage check is shown as pending. -/
def Conclusive (s : System) (e : Event) : Prop := e.Fails → Inconclusive s

theorem Chain.step (h : Chain s s.tasks) (hdefault : DefaultProxyValid api) {e : Event}
    (he : Conclusive s e) : Chain (step api dirs s e) (step api dirs s e).tasks := by
  cases e with
  | selectCustomDataDir path =>
    dsimp only [Onboarding.step, System.selectCustomDataDir]
    split
    · exact h
    · exact h.select _ _
  | useDefaultDataDir => exact h.select _ _
  | changeCore change => exact h.changeCore hdefault change
  | statusReturned status =>
    dsimp only [Onboarding.step]
    split
    next htasks => exact h.statusReturned htasks status
    next => exact h
  | statusThrew =>
    dsimp only [Onboarding.step]
    split
    next htasks => exact h.statusThrew htasks
    next => exact h
  | previewReturned preview =>
    dsimp only [Onboarding.step, Onboarding.previewDone]
    split
    next htasks =>
      exact h.previewDone htasks fun hfails => he (hfails preview rfl)
    next => exact h
  | previewThrew =>
    dsimp only [Onboarding.step, Onboarding.previewDone]
    split
    next htasks => exact h.previewDone htasks fun _ => he trivial
    next => exact h
  | checkReturned result =>
    dsimp only [Onboarding.step, Onboarding.checkDone]
    split
    next htasks => exact h.checkDone htasks result
    next => exact h
  | checkThrew =>
    dsimp only [Onboarding.step, Onboarding.checkDone]
    split
    next htasks => exact h.checkDone htasks _
    next => exact h

/-- What setup shows and what it waits for. -/
structure Consistent (s : System) : Prop where
  one_preview : (s.tasks.filter Task.isPreview).length ≤ 1
  one_check : (s.tasks.filter Task.isCheck).length ≤ 1
  /-- The preview and the check that would be applied are those of the selection. -/
  preview_current : ∀ id selection, .preview id selection ∈ s.tasks →
    id = s.model.m_preview_request_id → selection = s.model.selection
  check_current : ∀ id path, .check id path ∈ s.tasks →
    id = s.model.m_storage_request_id → path = s.model.m_data_dir
  settled : s.tasks = [] →
    s.model.m_preview_pending = false ∧ s.model.m_storage_check_pending = false ∧ Told s

theorem Chain.consistent (h : Chain s s.tasks) : Consistent s := by
  generalize htasks : s.tasks = tasks at h
  cases h with
  | idle hpreview hcheck hpending hstorage htold =>
    constructor <;> rw [htasks]
    exacts [Nat.zero_le _, Nat.zero_le _, by simp, by simp, fun _ => ⟨hpending, hstorage, htold⟩]
  | status id hpreview hcheck hpending hstorage =>
    constructor <;> rw [htasks]
    exacts [Nat.le_refl _, Nat.zero_le _, by simp, by simp, by simp]
  | preview id selection hpreview hcheck hpending hle hcurrent =>
    constructor <;> rw [htasks]
    exacts [Nat.le_refl _, Nat.zero_le _, by simpa using hcurrent, by simp, by simp]
  | check hpreview hcheck hpending htold =>
    constructor <;> rw [htasks]
    exacts [Nat.zero_le _, Nat.le_refl _, by simp, by simp, by simp]
  | both id path preview_id selection hpreview hcheck hpending hlt hle hcurrent =>
    constructor <;> rw [htasks]
    · exact Nat.le_refl _
    · exact Nat.le_refl _
    · simpa using hcurrent
    · -- The check in flight is stale.
      rintro id' path' hmem heq
      simp only [List.mem_cons, Task.check.injEq, reduceCtorEq, List.not_mem_nil, or_false] at hmem
      exact absurd (hmem.1.symm.trans heq) (Nat.ne_of_lt hlt)
    · simp

theorem consistent_run (hdefault : DefaultProxyValid api)
    (h : Reaches (step api dirs) Conclusive (start dirs) s) : Consistent s := by
  have hchain : Chain s s.tasks :=
    h.invariant (I := fun s => Chain s s.tasks) (.start dirs) fun _ _ hs he => hs.step hdefault he
  exact hchain.consistent

def plainDirs : DataDirs where
  normalizeLocalPath := id
  defaultDataDirString := "/home/.bitcoin".toList
  isDefaultDataDir path := path = "/home/.bitcoin".toList

/-- The preview of a new directory. -/
def plainPreview : PreviewResult where
  ok := true
  error := ""
  values := {}
  core_setting_statuses := {}
  assumed_blockchain_size := 700
  assumed_chainstate_size := 14
  existing_profile := false

def plainStatus : OnboardingStartupStatus := ⟨true, "", "/home/.bitcoin".toList, .Default⟩

def plainSetup : System → Event → System := step plainCore plainDirs

/-- The startup, a change of the directory and the check of its storage. -/
theorem consistent_run_selected : Consistent (([.statusReturned plainStatus, .previewReturned plainPreview,
    .checkReturned ⟨"", 1000000000000, true⟩, .selectCustomDataDir "/disk".toList,
    .previewReturned plainPreview, .checkReturned ⟨"", 1000000000, true⟩] : List Event).foldl plainSetup
      (start plainDirs)) := by
  have hstart : Reaches plainSetup Conclusive (start plainDirs) _ := .refl
  have hshown := (hstart.snoc (.statusReturned plainStatus) False.elim).snoc (.previewReturned plainPreview)
    (fun hfails => nomatch hfails)
  have hselected := (hshown.snoc (.checkReturned ⟨"", 1000000000000, true⟩) False.elim).snoc
    (.selectCustomDataDir "/disk".toList) False.elim
  exact consistent_run .plainCore ((hselected.snoc (.previewReturned plainPreview)
    fun hfails => nomatch hfails).snoc (.checkReturned ⟨"", 1000000000, true⟩) False.elim)

/-- A directory is selected during a storage check, and its preview fails. -/
theorem not_consistent_after_stale_check :
    ∃ s, Reaches plainSetup (fun _ _ => True) (start plainDirs) s ∧ ¬Consistent s := by
  refine ⟨_, Reaches.events (fun _ _ => trivial) .refl [.statusReturned plainStatus,
    .previewReturned plainPreview, .selectCustomDataDir "/gone".toList, .checkReturned ⟨"", 1000, true⟩,
    .previewReturned { plainPreview with ok := false, error := "gone" }], fun h => ?_⟩
  obtain ⟨-, hstorage, -⟩ := h.settled rfl
  exact absurd hstorage (by decide)

end GuiQml.Onboarding
