import GuiQml.Onboarding.Checked
import Mathlib.Data.List.Nodup

/-!
# Who chose a setting

The user, the recommendation to prune and the previews write the same values. A setting is touched when the
user or the recommendation chose its value, and `m_prune_auto_recommended` tells one from the other.
-/

namespace GuiQml.Onboarding

open GuiQml.Settings Reach

/-- An event, or a preview or the result of a storage check, whatever asked for it. -/
inductive Action
  | event (e : Event)
  | preview (preview : PreviewResult)
  | storage (request_id : Nat) (result : StorageSpaceResult)

def act (api : CoreApi) (dirs : DataDirs) (s : System) : Action → System
  | .event e => step api dirs s e
  | .preview preview => s.applyPreview preview
  | .storage request_id result => s.applyStorageCheckResult request_id result

namespace Action

def IsEdit (name : Name) : Action → Prop
  | .event (.changeCore change) => change.name = name
  | _ => False

/-- An edit of the setting that is accepted. -/
def Accepts (api : CoreApi) (name : Name) (session : Session) : Action → Prop
  | .event (.changeCore change) => change.name = name ∧ (change.apply api session).2 = true
  | _ => False

/-- An edit of the setting that is accepted and changes it. -/
def Edits (api : CoreApi) (name : Name) (session : Session) : Action → Prop
  | .event (.changeCore change) => change.name = name ∧ (change.apply api session).2 = true ∧
      ¬SameSetting name (change.apply api session).1.m_values session.m_values
  | _ => False

def Previews : Action → Prop
  | .preview _ | .event (.previewReturned _) => True
  | _ => False

def ReportsStorage : Action → Prop
  | .storage .. | .event (.checkReturned _) | .event .checkThrew => True
  | _ => False

end Action

section Choices

variable (api : CoreApi) (dirs : DataDirs) (name : Name) (s : System) (actions : List Action)

/-- Whether the user changed the setting with one of the actions. -/
def Edited : Prop :=
  Happens (act api dirs) (fun s a => a.Edits api name s.model.m_core_settings) s actions

/-- Whether one of the actions was an edit of the setting that was accepted. -/
def Accepted : Prop :=
  Happens (act api dirs) (fun s a => a.Accepts api name s.model.m_core_settings) s actions

/-- The action leaves the setting as it is. -/
def Leaves (a : Action) : Prop :=
  SameSetting name (act api dirs s a).model.m_core_settings.m_values s.model.m_core_settings.m_values

/-- What the user has chosen is touched, and only the user changes it. -/
def Chosen : Prop :=
  s.model.m_core_settings.isTouched name = true ∧ ∀ a : Action, ¬a.IsEdit name → Leaves api dirs name s a

end Choices

/-- What the settings owe to the user, when `edited` is what the user has changed. -/
structure Respects (api : CoreApi) (dirs : DataDirs) (s : System) (edited : Name → Prop) : Prop where
  chosen : ∀ name, edited name → Chosen api dirs name s
  locked : ∀ name, s.model.m_core_settings.canEdit name = false →
    ∀ a : Action, ¬a.Previews → Leaves api dirs name s a
  /-- The recommendation to prune is the mark of the pruning that the user did not choose. -/
  recommended_iff : s.model.m_prune_auto_recommended = true ↔
    s.model.m_core_settings.isTouched .prune = true ∧ ¬edited .prune
  recommends : s.model.m_prune_auto_recommended = true →
    s.model.m_core_settings.m_values.prune = true ∧
      s.model.m_core_settings.m_values.prune_size_gb = DEFAULT_PRUNE_TARGET_GB
  /-- The result of a storage check changes no setting, or it recommends to prune and marks it, or not to and
  does not. -/
  reported : ∀ a : Action, a.ReportsStorage →
    let after := (act api dirs s a).model
    after.m_core_settings = s.model.m_core_settings ∧
        after.m_prune_auto_recommended = s.model.m_prune_auto_recommended ∨
      after.m_core_settings.isTouched .prune = after.m_core_settings.m_values.prune ∧
        after.m_prune_auto_recommended = after.m_core_settings.m_values.prune

/-! ## What an action does -/

/-- What an action makes of the settings and of the mark of the recommendation. -/
inductive Effect (api : CoreApi) (session : Session) (auto : Bool) (a : Action) : Session → Bool → Prop
  | none : Effect api session auto a session auto
  | refused {name : Name} {values : Values} (ha : a.IsEdit name) (hprune : name ≠ .prune)
      (hedit : session.canEdit name = true)
      (hothers : ∀ other ≠ name, SameSetting other values session.m_values) :
      Effect api session auto a { session with m_values := values } auto
  | edit {name : Name} {values : Values} (ha : a.IsEdit name) (hedits : a.Edits api name session)
      (hedit : session.canEdit name = true)
      (hothers : ∀ other ≠ name, SameSetting other values session.m_values) :
      Effect api session auto a { session.markTouched name with m_values := values }
        (if name = .prune then false else auto)
  | recommend (should_prune : Bool) (ha : a.ReportsStorage) (hedit : session.canEdit .prune = true)
      (hchosen : session.isTouched .prune = true → auto = true) :
      Effect api session auto a
        (session.changePruneRecommendation should_prune DEFAULT_PRUNE_TARGET_GB should_prune) should_prune
  | preview (values : Values) (locked : List Name) (ha : a.Previews) :
      Effect api session auto a (session.applyPreviewValuesPreservingTouched values locked) auto
  /-- The preview of an existing profile takes the recommendation back. -/
  | takeBack (values : Values) (locked : List Name) (ha : a.Previews) (hauto : auto = true) :
      Effect api session auto a ((session.changePruneRecommendation values.prune values.prune_size_gb
        false).applyPreviewValuesPreservingTouched values locked) false

section Effects

variable {api : CoreApi} {dirs : DataDirs} {s : System} {m : OnboardingOptionsModel} {a : Action}

/-- The effect on a model. -/
def Affects (api : CoreApi) (a : Action) (m after : OnboardingOptionsModel) : Prop :=
  Effect api m.m_core_settings m.m_prune_auto_recommended a after.m_core_settings
    after.m_prune_auto_recommended

theorem affects_setDataDir (hcore : s.model.m_core_settings = m.m_core_settings)
    (hauto : s.model.m_prune_auto_recommended = m.m_prune_auto_recommended) (path : Str) :
    Affects api a m (s.setDataDir dirs path).model := by
  unfold Affects System.setDataDir System.refreshPreview
  rw [← hcore, ← hauto]
  dsimp only
  split
  · exact .none
  · exact .none

theorem pruneChanged_iff {name : Name} {values before : Values}
    (hothers : ∀ other ≠ name, SameSetting other values before)
    (hchanged : ¬SameSetting name values before) :
    (before.prune ≠ values.prune || before.prune_size_gb ≠ values.prune_size_gb) = true ↔ name = .prune := by
  rw [Bool.or_eq_true, decide_eq_true_iff, decide_eq_true_iff]
  constructor
  · intro h
    by_contra hne
    have hsame : SameSetting .prune values before := hothers .prune (Ne.symm hne)
    rcases h with h | h
    · exact h hsame.1.symm
    · exact h hsame.2.symm
  · intro hname
    rw [hname] at hchanged
    by_contra h
    rw [not_or, not_not, not_not] at h
    exact hchanged ⟨h.1.symm, h.2.symm⟩

theorem affects_changeCore (m : OnboardingOptionsModel) (change : CoreChange) :
    Affects api (.event (.changeCore change)) m (m.changeCore api change) := by
  have hchanged := @CoreChange.changed api m.m_core_settings change
  unfold Affects OnboardingOptionsModel.changeCore
  dsimp only
  generalize hresult : change.apply api m.m_core_settings = result at hchanged
  cases hchanged with
  | same accepted =>
    simpa using Effect.none
  | refused hprune hedit hothers => exact .refused rfl hprune hedit hothers
  | @touched values hedit hothers hchanged =>
    have hedits : (Action.event (.changeCore change)).Edits api change.name m.m_core_settings :=
      ⟨rfl, by rw [hresult], by rw [hresult]; exact hchanged⟩
    have hauto : (if true && (m.m_core_settings.m_values.prune ≠ values.prune ||
          m.m_core_settings.m_values.prune_size_gb ≠ values.prune_size_gb) then false
        else m.m_prune_auto_recommended) =
        if change.name = .prune then false else m.m_prune_auto_recommended := by
      rw [Bool.true_and]
      exact if_congr (pruneChanged_iff hothers hchanged) rfl rfl
    have hisEdit : (Action.event (.changeCore change)).IsEdit change.name := rfl
    have heffect : Effect api m.m_core_settings m.m_prune_auto_recommended _ _ _ :=
      .edit hisEdit hedits hedit hothers
    rw [← hauto] at heffect
    exact heffect

theorem affects_recommend (ha : a.ReportsStorage) :
    Affects api a m m.applyAutomaticPruneRecommendation := by
  unfold OnboardingOptionsModel.applyAutomaticPruneRecommendation
  split
  · exact .none
  split
  · exact .none
  split
  · exact .none
  next hedit =>
  split
  · exact .none
  split
  · exact .none
  next hchosen =>
  refine .recommend _ ha (by simpa using hedit) fun htouched => ?_
  simpa [htouched] using hchosen

theorem affects_storage (ha : a.ReportsStorage) (hs : s.model = m) (request_id : Nat)
    (result : StorageSpaceResult) :
    Affects api a m (s.applyStorageCheckResult request_id result).model := by
  subst hs
  unfold System.applyStorageCheckResult
  dsimp only
  split
  · split
    · exact .none
    · exact .none
  · exact affects_recommend (m := { s.model with
      m_storage_check_in_flight := false
      m_storage_check_pending := false
      m_storage_result_valid := result.ok
      m_storage_available_bytes := if result.ok then result.available_bytes else 0
      m_storage_path_message := result.message
      m_storage_error_text := if result.ok then "" else result.message }) ha

theorem requestStorageCheck_core (s : System) :
    s.requestStorageCheck.model.m_core_settings = s.model.m_core_settings ∧
      s.requestStorageCheck.model.m_prune_auto_recommended = s.model.m_prune_auto_recommended := by
  unfold System.requestStorageCheck
  dsimp only
  split
  · exact ⟨rfl, rfl⟩
  · exact ⟨rfl, rfl⟩

theorem affects_preview (ha : a.Previews) (hcore : s.model.m_core_settings = m.m_core_settings)
    (hauto : s.model.m_prune_auto_recommended = m.m_prune_auto_recommended) (preview : PreviewResult) :
    Affects api a m (s.applyPreview preview).model := by
  unfold Affects
  rw [← hcore, ← hauto]
  unfold System.applyPreview
  split
  · exact .none
  dsimp only
  split
  next htaken =>
    obtain ⟨hcore, hauto⟩ := requestStorageCheck_core { s with model := _ }
    rw [hcore, hauto]
    exact .takeBack _ _ ha (by simp at htaken; exact htaken.2)
  next =>
    obtain ⟨hcore, hauto⟩ := requestStorageCheck_core { s with model := _ }
    rw [hcore, hauto]
    exact .preview _ _ ha

theorem affects_previewDone (ha : a.Previews) (hs : s.model = m) (request_id : Nat)
    (selection : Selection) (preview : PreviewResult) :
    Affects api a m (s.previewDone request_id selection (.result preview)).model := by
  subst hs
  unfold System.previewDone
  dsimp only
  split
  · exact .none
  · exact affects_preview ha (by rfl) (by rfl) preview

theorem affects_act (a : Action) : Affects api a s.model (act api dirs s a).model := by
  cases a with
  | preview preview =>
    have ha : (Action.preview preview).Previews := trivial
    exact affects_preview ha rfl rfl preview
  | storage request_id result =>
    have ha : (Action.storage request_id result).ReportsStorage := trivial
    exact affects_storage ha rfl request_id result
  | event e =>
    cases e with
    | selectCustomDataDir path =>
      dsimp only [act, step, System.selectCustomDataDir]
      split
      · exact .none
      · exact affects_setDataDir (by rfl) (by rfl) _
    | useDefaultDataDir => exact affects_setDataDir (by rfl) (by rfl) _
    | changeCore change => exact affects_changeCore s.model change
    | statusReturned status =>
      dsimp only [act, step]
      split
      · unfold System.statusReturned
        dsimp only
        split
        · exact .none
        · split
          · exact .none
          · exact .none
      · exact .none
    | statusThrew =>
      dsimp only [act, step]
      split
      · exact .none
      · exact .none
    | previewReturned preview =>
      have ha : (Action.event (.previewReturned preview)).Previews := trivial
      dsimp only [act, step, Onboarding.previewDone]
      split
      · exact affects_previewDone ha (by rfl) _ _ preview
      · exact .none
    | previewThrew =>
      dsimp only [act, step, Onboarding.previewDone, System.previewDone]
      split
      · split
        · exact .none
        · exact .none
      · exact .none
    | checkReturned result =>
      have ha : (Action.event (.checkReturned result)).ReportsStorage := trivial
      dsimp only [act, step, Onboarding.checkDone]
      split
      · exact affects_storage ha (by rfl) _ result
      · exact .none
    | checkThrew =>
      have ha : (Action.event .checkThrew).ReportsStorage := trivial
      dsimp only [act, step, Onboarding.checkDone]
      split
      · exact affects_storage ha (by rfl) _ _
      · exact .none

/-! ## What survives an effect -/

variable {session after : Session} {auto auto' : Bool} {name : Name}

theorem isTouched_clearTouched_of_ne (session : Session) (h : name ≠ .prune) :
    (session.clearTouched .prune).isTouched name = session.isTouched name := by
  unfold Session.isTouched Session.clearTouched
  rw [Bool.eq_iff_iff]
  simp [List.mem_erase_of_ne h]

/-- A recommendation leaves the other settings as they are, and what is touched of them. -/
theorem changePruneRecommendation_of_ne (session : Session) (prune : Bool) (prune_size_gb : Int)
    (mark_touched : Bool) (h : name ≠ .prune) :
    (session.changePruneRecommendation prune prune_size_gb mark_touched).isTouched name =
        session.isTouched name ∧
      SameSetting name (session.changePruneRecommendation prune prune_size_gb mark_touched).m_values
        session.m_values := by
  constructor
  · cases mark_touched with
    | true =>
      refine (isTouched_markTouched session .prune name).trans ?_
      rw [decide_eq_false h, Bool.false_or]
    | false => exact isTouched_clearTouched_of_ne session h
  · cases name <;> first | exact absurd rfl h | exact trivial | rfl | exact ⟨rfl, rfl⟩

theorem applyPreviewValues_touched (session : Session) (values : Values) (locked : List Name)
    (h : session.isTouched name = true) :
    SameSetting name (session.applyPreviewValuesPreservingTouched values locked).m_values
      session.m_values := by
  cases name with
  | listen | natpmp | server => exact if_pos h
  | prune | proxy | onion => exact ⟨if_pos h, if_pos h⟩
  | _ => trivial

/-- What the user chose is touched, and the recommendation did not choose it. -/
def ByUser (name : Name) (session : Session) (auto : Bool) : Prop :=
  session.isTouched name = true ∧ (name = .prune → auto = false)

theorem ByUser.ne_prune (h : ByUser name session auto) (hauto : auto = true) : name ≠ .prune := by
  intro hname
  rw [h.2 hname] at hauto
  cases hauto

/-- A recommendation is not made over what the user chose. -/
theorem ByUser.not_recommended (h : ByUser name session auto)
    (hchosen : session.isTouched .prune = true → auto = true) : name ≠ .prune := by
  intro hname
  have htouched : session.isTouched .prune = true := hname ▸ h.1
  exact h.ne_prune (hchosen htouched) hname

theorem Effect.byUser (h : Effect api session auto a after auto') (huser : ByUser name session auto) :
    ByUser name after auto' := by
  have ⟨htouched, hauto⟩ := huser
  cases h with
  | none => exact ⟨htouched, hauto⟩
  | refused => exact ⟨htouched, hauto⟩
  | @edit other values ha =>
    have htouched' : (session.markTouched other).isTouched name = true := by
      rw [isTouched_markTouched, htouched, Bool.or_true]
    refine ⟨htouched', fun hname => ?_⟩
    split
    · rfl
    · exact hauto hname
  | recommend should_prune ha hedit hchosen =>
    have hname := huser.not_recommended hchosen
    refine ⟨?_, fun h => absurd h hname⟩
    exact (changePruneRecommendation_of_ne session _ _ _ hname).1.trans htouched
  | preview => exact ⟨htouched, hauto⟩
  | takeBack values locked ha hauto' =>
    have hname := huser.ne_prune hauto'
    refine ⟨?_, fun _ => rfl⟩
    exact (changePruneRecommendation_of_ne session values.prune values.prune_size_gb false
      hname).1.trans htouched

theorem Effect.chosen (h : Effect api session auto a after auto') (huser : ByUser name session auto)
    (ha : ¬a.IsEdit name) : SameSetting name after.m_values session.m_values := by
  have hne {other : Name} (hother : a.IsEdit other) : name ≠ other := fun h => ha (h ▸ hother)
  cases h with
  | none => exact sameSetting_refl ..
  | refused hother _ _ hothers => exact hothers name (hne hother)
  | edit hother _ _ hothers => exact hothers name (hne hother)
  | recommend _ _ _ hchosen =>
    exact (changePruneRecommendation_of_ne session _ _ _ (huser.not_recommended hchosen)).2
  | preview values locked => exact applyPreviewValues_touched session values locked huser.1
  | takeBack values locked ha hauto =>
    obtain ⟨hsame, hvalues⟩ := changePruneRecommendation_of_ne session values.prune
      values.prune_size_gb false (huser.ne_prune hauto)
    exact sameSetting_trans (applyPreviewValues_touched _ values locked (hsame.trans huser.1)) hvalues

theorem Effect.locked (h : Effect api session auto a after auto') (hlocked : session.canEdit name = false)
    (ha : ¬a.Previews) : SameSetting name after.m_values session.m_values := by
  have hne {other : Name} (hedit : session.canEdit other = true) : name ≠ other := by
    intro h
    rw [← h, hlocked] at hedit
    cases hedit
  cases h with
  | none => exact sameSetting_refl ..
  | refused _ _ hedit hothers => exact hothers name (hne hedit)
  | edit _ _ hedit hothers => exact hothers name (hne hedit)
  | recommend _ _ hedit => exact (changePruneRecommendation_of_ne session _ _ _ (hne hedit)).2
  | preview _ _ hpreviews => exact absurd hpreviews ha
  | takeBack _ _ hpreviews => exact absurd hpreviews ha

/-! ## The mark of the recommendation -/

/-- The recommendation is to prune and is touched. -/
structure Marked (session : Session) (auto : Bool) : Prop where
  nodup : session.m_touched_settings.Nodup
  touched : auto = true → session.isTouched .prune = true
  recommends : auto = true →
    session.m_values.prune = true ∧ session.m_values.prune_size_gb = DEFAULT_PRUNE_TARGET_GB

theorem isTouched_clearTouched (hnodup : session.m_touched_settings.Nodup) :
    (session.clearTouched .prune).isTouched .prune = false := by
  unfold Session.isTouched Session.clearTouched
  simp [hnodup.mem_erase_iff]

theorem isTouched_changePruneRecommendation (hnodup : session.m_touched_settings.Nodup) (prune : Bool)
    (prune_size_gb : Int) (mark_touched : Bool) :
    (session.changePruneRecommendation prune prune_size_gb mark_touched).isTouched .prune = mark_touched := by
  cases mark_touched with
  | true => exact (isTouched_markTouched session .prune .prune).trans (by rfl)
  | false => exact isTouched_clearTouched hnodup

theorem recommends_of_same {values before : Values} (hsame : SameSetting .prune values before)
    (h : before.prune = true ∧ before.prune_size_gb = DEFAULT_PRUNE_TARGET_GB) :
    values.prune = true ∧ values.prune_size_gb = DEFAULT_PRUNE_TARGET_GB :=
  ⟨hsame.1.trans h.1, hsame.2.trans h.2⟩

theorem Marked.effect (hmarked : Marked session auto) (h : Effect api session auto a after auto') :
    Marked after auto' := by
  obtain ⟨hnodup, htouched, hrecommends⟩ := hmarked
  cases h with
  | none => exact ⟨hnodup, htouched, hrecommends⟩
  | refused _ hprune _ hothers =>
    exact ⟨hnodup, htouched, fun hauto =>
      recommends_of_same (hothers .prune hprune.symm) (hrecommends hauto)⟩
  | @edit other values _ _ _ hothers =>
    refine ⟨List.Nodup.insert hnodup, fun hauto => ?_, fun hauto => ?_⟩
    · split at hauto
      · cases hauto
      · exact (isTouched_markTouched session other .prune).trans (by rw [htouched hauto, Bool.or_true])
    · split at hauto
      · cases hauto
      next hname =>
        exact recommends_of_same (hothers .prune (Ne.symm hname)) (hrecommends hauto)
  | recommend =>
    refine ⟨?_, fun hauto => ?_, fun hauto => ?_⟩
    · cases auto' with
      | true => exact List.Nodup.insert hnodup
      | false => exact hnodup.erase _
    · rw [isTouched_changePruneRecommendation hnodup, hauto]
    · subst hauto
      exact ⟨rfl, rfl⟩
  | preview values locked =>
    refine ⟨hnodup, htouched, fun hauto => ?_⟩
    have hsame := applyPreviewValues_touched session values locked (htouched hauto)
    exact recommends_of_same hsame (hrecommends hauto)
  | takeBack values locked =>
    exact ⟨hnodup.erase _, fun hauto => (by cases hauto), fun hauto => (by cases hauto)⟩

theorem Marked.not_edited (hmarked : Marked session auto) (h : Effect api session auto a after auto')
    (hauto : session.isTouched .prune = true → auto = true) (ha : ¬a.Edits api .prune session) :
    after.isTouched .prune = true → auto' = true := by
  intro htouched
  cases h with
  | none => exact hauto htouched
  | refused => exact hauto htouched
  | @edit other values _ hedits =>
    have hne : other ≠ .prune := fun h => ha (h ▸ hedits)
    have htouched : (session.markTouched other).isTouched .prune = true := htouched
    rw [isTouched_markTouched, decide_eq_false (Ne.symm hne), Bool.false_or] at htouched
    rw [if_neg hne]
    exact hauto htouched
  | recommend should_prune =>
    rwa [isTouched_changePruneRecommendation hmarked.nodup] at htouched
  | preview => exact hauto htouched
  | takeBack values locked =>
    have htouched : (session.changePruneRecommendation values.prune values.prune_size_gb
      false).isTouched .prune = true := htouched
    rwa [isTouched_changePruneRecommendation hmarked.nodup] at htouched

theorem Action.ReportsStorage.not_previews (h : a.ReportsStorage) : ¬a.Previews := by
  intro hpreviews
  cases a with
  | event e => cases e <;> first | exact h | exact hpreviews
  | preview => exact h
  | storage => exact hpreviews

theorem Action.ReportsStorage.not_edit (h : a.ReportsStorage) : ¬a.IsEdit name := by
  intro hedit
  cases a with
  | event e => cases e <;> first | exact h | exact hedit
  | preview => exact h
  | storage => exact hedit

/-- A storage result makes a recommendation or changes nothing. -/
theorem Marked.reported (hmarked : Marked session auto) (h : Effect api session auto a after auto')
    (ha : a.ReportsStorage) :
    after = session ∧ auto' = auto ∨
      after.isTouched .prune = after.m_values.prune ∧ auto' = after.m_values.prune := by
  cases h with
  | none => exact .inl ⟨rfl, rfl⟩
  | refused hedit => exact absurd hedit ha.not_edit
  | edit hedit => exact absurd hedit ha.not_edit
  | recommend should_prune =>
    exact .inr ⟨isTouched_changePruneRecommendation hmarked.nodup _ _ _, rfl⟩
  | preview _ _ hpreviews => exact absurd hpreviews ha.not_previews
  | takeBack _ _ hpreviews => exact absurd hpreviews ha.not_previews

/-! ## Runs -/

theorem byUser_changeCore {change : CoreChange} (haccepted : (change.apply api m.m_core_settings).2 = true)
    (hchange : ¬SameSetting change.name (change.apply api m.m_core_settings).1.m_values
      m.m_core_settings.m_values) :
    ByUser change.name (m.changeCore api change).m_core_settings
      (m.changeCore api change).m_prune_auto_recommended := by
  have hchanged := @CoreChange.changed api m.m_core_settings change
  unfold OnboardingOptionsModel.changeCore
  dsimp only
  generalize change.apply api m.m_core_settings = result at hchanged haccepted hchange
  cases hchanged with
  | same => exact absurd (sameSetting_refl ..) hchange
  | refused => cases haccepted
  | touched _ hothers hchanged =>
    have htouched : (m.m_core_settings.markTouched change.name).isTouched change.name = true := by
      rw [isTouched_markTouched, decide_eq_true rfl, Bool.true_or]
    refine ⟨htouched, fun hname => if_pos ?_⟩
    rw [Bool.true_and]
    exact (pruneChanged_iff hothers hchanged).mpr hname

theorem byUser_act (h : a.Edits api name s.model.m_core_settings) :
    ByUser name (act api dirs s a).model.m_core_settings
      (act api dirs s a).model.m_prune_auto_recommended := by
  cases a with
  | event e =>
    cases e with
    | changeCore change =>
      obtain ⟨rfl, haccepted, hchange⟩ := h
      exact byUser_changeCore haccepted hchange
    | _ => exact h.elim
  | _ => exact h.elim

theorem byUser_run {actions : List Action} (h : Edited api dirs name s actions) :
    ByUser name (actions.foldl (act api dirs) s).model.m_core_settings
      (actions.foldl (act api dirs) s).model.m_prune_auto_recommended :=
  Happens.kept (I := fun s => ByUser name s.model.m_core_settings s.model.m_prune_auto_recommended)
    (fun _ _ => byUser_act) (fun _ a hs => (affects_act a).byUser hs) h

end Effects

section Run

variable {api : CoreApi} {dirs : DataDirs}

theorem marked_start : Marked (start dirs).model.m_core_settings (start dirs).model.m_prune_auto_recommended :=
  ⟨List.nodup_nil, fun h => (by cases h), fun h => (by cases h)⟩

theorem marked_act {s : System} (h : Marked s.model.m_core_settings s.model.m_prune_auto_recommended)
    (a : Action) : Marked (act api dirs s a).model.m_core_settings
      (act api dirs s a).model.m_prune_auto_recommended :=
  Marked.effect h (@affects_act api dirs s a)

theorem marked_run (actions : List Action) :
    Marked (actions.foldl (act api dirs) (start dirs)).model.m_core_settings
      (actions.foldl (act api dirs) (start dirs)).model.m_prune_auto_recommended := by
  have hrun : Reaches (act api dirs) (fun _ _ => True) (start dirs) _ :=
    Reaches.events (fun _ _ => trivial) .refl actions
  exact hrun.invariant (I := fun s => Marked s.model.m_core_settings s.model.m_prune_auto_recommended)
    marked_start fun _ a hs _ => marked_act hs a

/-- Before the user changes the pruning, what touches it is the recommendation. -/
theorem auto_of_not_edited {actions : List Action} (h : ¬Edited api dirs .prune (start dirs) actions) :
    (actions.foldl (act api dirs) (start dirs)).model.m_core_settings.isTouched .prune = true →
      (actions.foldl (act api dirs) (start dirs)).model.m_prune_auto_recommended = true := by
  have hkept := kept_until (I := fun s => Marked s.model.m_core_settings s.model.m_prune_auto_recommended ∧
    (s.model.m_core_settings.isTouched .prune = true → s.model.m_prune_auto_recommended = true))
    ⟨marked_start, fun htouched => (by cases htouched)⟩
    (fun s a ⟨hmarked, hauto⟩ ha =>
      ⟨marked_act hmarked a, hmarked.not_edited (affects_act a) hauto ha⟩) h
  exact hkept.2

/-- The settings of every run owe to the user what the user has changed. -/
theorem respects_run (api : CoreApi) (dirs : DataDirs) (actions : List Action) :
    Respects api dirs (actions.foldl (act api dirs) (start dirs))
      fun name => Edited api dirs name (start dirs) actions where
  chosen name hedited := ⟨(byUser_run hedited).1, fun a ha => (affects_act a).chosen (byUser_run hedited) ha⟩
  locked name hlocked a ha := (affects_act a).locked hlocked ha
  recommended_iff := by
    constructor
    · intro hauto
      refine ⟨(marked_run actions).touched hauto, fun hedited => ?_⟩
      rw [(byUser_run hedited).2 rfl] at hauto
      cases hauto
    · exact fun ⟨htouched, hedited⟩ => auto_of_not_edited hedited htouched
  recommends := (marked_run actions).recommends
  reported a ha := (marked_run actions).reported (affects_act a) ha

/-- The user commits the location of the proxy that is shown, and the first preview has another. -/
theorem not_chosen_of_accepted : ∃ actions,
    Accepted plainCore plainDirs .proxy (start plainDirs) actions ∧
      ¬Chosen plainCore plainDirs .proxy (actions.foldl (act plainCore plainDirs) (start plainDirs)) := by
  refine ⟨[.event (.changeCore (.proxyLocation defaultProxyAddress)), .event (.statusReturned plainStatus)],
    .inl ⟨rfl, by decide⟩, fun h => ?_⟩
  obtain ⟨-, hkept⟩ := h
  exact absurd (hkept (.event (.previewReturned
    { plainPreview with values := { proxy_address := "10.0.0.1:9050".toList } })) id).2 (by decide)

end Run

end GuiQml.Onboarding
