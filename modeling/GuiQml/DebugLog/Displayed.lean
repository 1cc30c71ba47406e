import GuiQml.DebugLog.Display

/-!
# The displayed lines are the filtered lines

Each operation leaves the displayed lines equal to the filter of the loaded ones, and a view that replays
what it was told shows them. Apart from the display, the model is the one that the reads are about.
-/

namespace GuiQml.DebugLog.Display

open Rows
open File (LogLine LogModel)

/-! ## What the views are told -/

theorem commonCount_le (old new : List LogLine) :
    commonCount old new ≤ old.length ∧ commonCount old new ≤ new.length := by
  fun_induction commonCount old new with
  | case1 line rest rest' ih => simpa using ih
  | case2 => simp
  | case3 => simp

theorem commonCount_take (old new : List LogLine) :
    old.take (commonCount old new) = new.take (commonCount old new) := by
  fun_induction commonCount old new with
  | case1 line rest rest' ih => simpa using ih
  | case2 => simp
  | case3 => simp

theorem commonRun_spec {old lines : List LogLine} {old_start new_start n : Nat}
    (h : commonRun old lines = (old_start, new_start, n)) (hn : 0 < n) :
    old_start + n ≤ old.length ∧ new_start + n ≤ lines.length ∧
      (old.drop old_start).take n = (lines.drop new_start).take n := by
  unfold commonRun at h
  split at h
  · rename_i i position hstart
    cases h
    have hle := commonCount_le (old.drop old_start) (lines.drop new_start)
    rw [List.length_drop, List.length_drop] at hle
    exact ⟨by omega, by omega, commonCount_take _ _⟩
  · cases h
    exact absurd hn (Nat.lt_irrefl 0)

theorem keepCommon_becomes {display : Lines} {lines : List LogLine} {old_start new_start n : Nat}
    (hold : old_start + n ≤ display.rows.length) (hnew : new_start + n ≤ lines.length)
    (hcommon : (display.rows.drop old_start).take n = (lines.drop new_start).take n) :
    Becomes View.rows display (keepCommon display lines old_start new_start n) lines := by
  -- The suffix goes, then the prefix, and only the common run is left.
  have hsuffix := (Becomes.refl View.rows display).removeSome
    (p := 0 < display.rows.length - old_start - n) (by omega) hold le_rfl
  rw [List.drop_length, List.append_nil] at hsuffix
  have hrun := hsuffix.removeSome (p := 0 < old_start) Iff.rfl (Nat.zero_le _)
    (by rw [List.length_take_of_le hold]; omega)
  rw [List.take_zero, List.nil_append, List.drop_take, Nat.add_sub_cancel_left, hcommon] at hrun
  -- The new prefix comes, then the new suffix.
  have hbefore : 0 < new_start ↔ lines.take new_start ≠ [] := by
    rw [← List.length_pos_iff, List.length_take]
    omega
  have hprefix := hrun.insertSome hbefore (Nat.zero_le _)
  rw [List.take_zero, List.nil_append, List.drop_zero] at hprefix
  have hafter : new_start + n < lines.length ↔ lines.drop (new_start + n) ≠ [] := by
    rw [← List.length_pos_iff, List.length_drop]
    omega
  have hall := hprefix.appendSome hafter
  apply hall.congr
  rw [List.append_assoc, ← List.drop_drop, List.take_append_drop, List.take_append_drop]

theorem applyDisplayLines_becomes (display : Lines) (lines : List LogLine) (force_reset : Bool) :
    Becomes View.rows display (applyDisplayLines display lines force_reset) lines := by
  have hrefl := Becomes.refl View.rows display
  unfold applyDisplayLines
  split
  · rename_i hsame
    simp only [Bool.and_eq_true, decide_eq_true_eq] at hsame
    exact hrefl.congr hsame.2.symm
  split
  · exact hrefl.resetRows
  split
  · rename_i hempty
    rw [List.isEmpty_iff] at hempty
    split
    · rename_i hlines
      exact hrefl.congr (hempty.trans (List.isEmpty_iff.mp hlines).symm)
    · rename_i hlines
      rw [List.isEmpty_iff] at hlines
      apply (hrefl.insertRows (Nat.zero_le _) hlines).congr
      simp [hempty]
  rename_i hdisplay
  rw [List.isEmpty_iff] at hdisplay
  have hnone := hrefl.removeRows (List.length_pos_iff.mpr hdisplay) le_rfl
  rw [List.take_zero, List.drop_length, List.nil_append] at hnone
  split
  · rename_i hlines
    exact hnone.congr (List.isEmpty_iff.mp hlines).symm
  rename_i hlines
  rw [List.isEmpty_iff] at hlines
  split
  · -- There is no common run.
    apply (hnone.insertRows (Nat.zero_le _) hlines).congr
    simp
  · rename_i old_start new_start n hcount hcommon
    obtain ⟨hold, hnew, htake⟩ := commonRun_spec hcommon (Nat.pos_of_ne_zero hcount)
    exact keepCommon_becomes hold hnew htake

/-! ## What the display depends on -/

namespace DisplayModel

variable {contains : String → String → Bool} {m m' : DisplayModel}

/-- The displayed lines are those of the loaded lines that pass the filter. -/
def Filtered (contains : String → String → Bool) (m : DisplayModel) : Prop :=
  m.m_display_lines = m.filteredLines contains m.m_all_lines

/-- The displayed lines stay right, and the views follow. -/
structure Advances (contains : String → String → Bool) (m m' : DisplayModel) : Prop where
  filtered : m'.Filtered contains
  follows : Follows View.rows m.display m'.display

/-- Neither the lines nor the filter change. -/
structure SameLines (m m' : DisplayModel) : Prop where
  m_all_lines : m'.m_all_lines = m.m_all_lines
  m_filter : m'.m_filter = m.m_filter
  m_warnings_and_errors_only : m'.m_warnings_and_errors_only = m.m_warnings_and_errors_only
  display : m'.display = m.display

theorem SameLines.filtered (h : SameLines m m') (hm : m.Filtered contains) : m'.Filtered contains := by
  unfold Filtered m_display_lines filteredLines keeps at hm ⊢
  rw [h.display, h.m_all_lines, h.m_filter, h.m_warnings_and_errors_only]
  exact hm

theorem Advances.refl (h : m.Filtered contains) : Advances contains m m := ⟨h, Follows.refl _ _⟩

theorem Advances.same {m'' : DisplayModel} (h : Advances contains m m') (hsame : SameLines m' m'') :
    Advances contains m m'' := by
  refine ⟨hsame.filtered h.filtered, ?_⟩
  rw [hsame.display]
  exact h.follows

theorem Advances.after {m₀ : DisplayModel} (h : Advances contains m m') (hdisplay : m.display = m₀.display) :
    Advances contains m₀ m' := by
  refine ⟨h.filtered, ?_⟩
  rw [← hdisplay]
  exact h.follows

theorem same_refresh (m : DisplayModel) (full_load : Bool) : SameLines m (m.refresh full_load) := by
  unfold refresh DebugLogModel.refresh
  split
  · constructor <;> rfl
  split
  · constructor <;> rfl
  split <;> constructor <;> rfl

theorem Advances.refresh (h : Advances contains m m') (full_load : Bool) :
    Advances contains m (m'.refresh full_load) := h.same (m'.same_refresh full_load)

/-! ## New lines -/

theorem applyLines_advances (contains : String → String → Bool) (m : DisplayModel) (lines : List LogLine)
    (force_reset : Bool) :
    Advances contains m (m.applyLines contains lines force_reset) := by
  unfold applyLines
  split
  · have hbecomes : Becomes View.rows m.display _ (m.filteredLines contains lines) :=
      (Becomes.refl View.rows m.display).resetRows
    exact ⟨hbecomes.rows, hbecomes.follows⟩
  · have hbecomes := applyDisplayLines_becomes m.display (m.filteredLines contains lines) false
    exact ⟨hbecomes.rows, hbecomes.follows⟩

theorem buildDisplayLines_advances (m : DisplayModel) (force_reset : Bool) :
    Advances contains m (m.buildDisplayLines contains force_reset) := by
  have hbecomes := applyDisplayLines_becomes m.display (m.filteredLines contains m.m_all_lines) force_reset
  exact ⟨hbecomes.rows, hbecomes.follows⟩

/-- The lines that a delta prunes are a prefix, and so are the displayed ones among them. -/
theorem filteredLines_split (contains : String → String → Bool) (m : DisplayModel) (lines : List LogLine) (n : Nat) :
    m.filteredLines contains lines =
      m.filteredLines contains (lines.take n) ++ m.filteredLines contains (lines.drop n) := by
  unfold filteredLines
  rw [← List.filter_append, List.take_append_drop]

theorem applyDelta_advances (h : m.Filtered contains) (lines : List LogLine) :
    Advances contains m (m.applyDelta contains lines).1 := by
  unfold applyDelta
  split
  · exact Advances.refl h
  dsimp only
  generalize (lines.take m.m_load_limit).reverse = new
  generalize hkeep : min m.m_all_lines.length (m.m_load_limit - new.length) = keep
  have hle : keep ≤ m.m_all_lines.length := by omega
  generalize hremove : m.m_all_lines.length - keep = remove
  have hkept : (m.m_all_lines.drop remove).take keep = m.m_all_lines.drop remove := by
    rw [List.take_of_length_le]
    rw [List.length_drop]
    omega
  have hsplit := m.filteredLines_split contains m.m_all_lines remove
  -- Where no line is pruned, the count is the length of no lines.
  have hcount : (if 0 < remove then (m.filteredLines contains (m.m_all_lines.take remove)).length else 0) =
      (m.filteredLines contains (m.m_all_lines.take remove)).length := by
    split
    · rfl
    · obtain rfl : remove = 0 := by omega
      rfl
  rw [hcount, hkept]
  have hpruned := (Becomes.refl View.rows m.display).removeSome
    (p := 0 < (m.filteredLines contains (m.m_all_lines.take remove)).length) Iff.rfl (Nat.zero_le _)
    (by rw [show m.display.rows = _ from h, hsplit, List.length_append]; omega)
  have hnew : ¬ (m.filteredLines contains new).isEmpty = true ↔ m.filteredLines contains new ≠ [] := by
    rw [List.isEmpty_iff]
  have hall := hpruned.appendSome hnew
  rw [ite_not] at hall
  refine ⟨hall.rows.trans ?_, hall.follows⟩
  rw [show m.display.rows = _ from h, hsplit, List.take_zero, List.nil_append, List.drop_left]
  exact (List.filter_append ..).symm

/-! ## Operations -/

theorem retainLines_advances (h : m.Filtered contains) : Advances contains m (m.retainLines contains) := by
  unfold retainLines
  split
  · apply (m.applyLines_advances contains (m.m_all_lines.rtake m.m_load_limit) false).same
    exact ⟨rfl, rfl, rfl, rfl⟩
  · exact Advances.refl h

theorem setLoadLimit_advances (h : m.Filtered contains) (limit : Int) :
    Advances contains m (m.setLoadLimit contains limit) := by
  have hlimit : SameLines m { m with m_load_limit := DebugLogModel.clampLimit limit } := ⟨rfl, rfl, rfl, rfl⟩
  have hretained := (retainLines_advances (hlimit.filtered h)).after hlimit.display
  unfold setLoadLimit
  dsimp only
  split
  · exact Advances.refl h
  split
  · exact hretained.refresh true
  · exact hretained

theorem setActive_advances (h : m.Filtered contains) (active : Bool) :
    Advances contains m (m.setActive active) := by
  have hsame : Advances contains m { m with
      m_active := active
      m_activation_generation := m.m_activation_generation + 1 } := (Advances.refl h).same ⟨rfl, rfl, rfl, rfl⟩
  unfold setActive
  split
  · exact Advances.refl h
  dsimp only
  split
  · exact hsame.refresh _
  · exact hsame.same ⟨rfl, rfl, rfl, rfl⟩

theorem setFilter_advances (h : m.Filtered contains) (filter : String) :
    Advances contains m (m.setFilter contains filter) := by
  unfold setFilter
  split
  · exact Advances.refl h
  · apply Advances.after (m := { m with m_filter := filter })
    · exact buildDisplayLines_advances _ true
    · rfl

theorem setWarningsAndErrorsOnly_advances (h : m.Filtered contains) (only : Bool) :
    Advances contains m (m.setWarningsAndErrorsOnly contains only) := by
  unfold setWarningsAndErrorsOnly
  split
  · exact Advances.refl h
  · apply Advances.after (m := { m with m_warnings_and_errors_only := only })
    · exact buildDisplayLines_advances _ true
    · rfl

theorem loadMore_advances (h : m.Filtered contains) : Advances contains m m.loadMore := by
  unfold loadMore
  split
  · exact (Advances.refl h).same ⟨rfl, rfl, rfl, rfl⟩
  · apply Advances.refresh
    exact (Advances.refl h).same ⟨rfl, rfl, rfl, rfl⟩

theorem install_advances (h : m.Filtered contains) (result : ReadResult) :
    Advances contains m (m.install contains result) := by
  have hopened : SameLines m (m.opened result) := ⟨rfl, rfl, rfl, rfl⟩
  unfold install
  dsimp only
  split
  · have hsnapshot := (m.opened result).applyLines_advances contains
      (result.lines.take (m.opened result).m_load_limit).reverse
      (result.continuity_lost || (m.opened result).m_all_lines.isEmpty)
    exact (hsnapshot.after hopened.display).same ⟨rfl, rfl, rfl, rfl⟩
  · have hdelta := applyDelta_advances (hopened.filtered h) result.lines
    exact (hdelta.after hopened.display).same ⟨rfl, rfl, rfl, rfl⟩

theorem rerunPending_advances (h : m.Filtered contains) : Advances contains m m.rerunPending := by
  unfold rerunPending
  dsimp only
  split
  · apply Advances.refresh
    exact (Advances.refl h).same ⟨rfl, rfl, rfl, rfl⟩
  · exact (Advances.refl h).same ⟨rfl, rfl, rfl, rfl⟩

theorem onReadCompleted_advances (h : m.Filtered contains) (result : ReadResult) :
    Advances contains m (m.onReadCompleted contains result) := by
  unfold onReadCompleted
  split
  · exact Advances.refl h
  split
  · have hfailed : SameLines m { m with m_log_available := false, m_open_error := result.error_message } :=
      ⟨rfl, rfl, rfl, rfl⟩
    exact (rerunPending_advances (hfailed.filtered h)).after hfailed.display
  dsimp only
  split
  · apply Advances.refresh
    exact (install_advances h result).same ⟨rfl, rfl, rfl, rfl⟩
  · exact (install_advances h result).same ⟨rfl, rfl, rfl, rfl⟩

theorem readReturned_advances (h : m.Filtered contains) (read : Read LogLine) (result : ReadResult) :
    Advances contains m (m.readReturned contains read result) := by
  unfold readReturned
  split
  · exact Advances.refl h
  split
  · exact rerunPending_advances h
  · exact onReadCompleted_advances h result

theorem stop_advances (h : m.Filtered contains) : Advances contains m m.stop := by
  unfold stop
  split
  · exact Advances.refl h
  · exact (Advances.refl h).same ⟨rfl, rfl, rfl, rfl⟩

theorem step_advances (h : m.Filtered contains) (event : Event) : Advances contains m (step contains m event) := by
  cases event with
  | setActive active => exact setActive_advances h active
  | setLoadLimit limit => exact setLoadLimit_advances h limit
  | loadMore => exact loadMore_advances h
  | refresh full_load => exact (Advances.refl h).refresh full_load
  | setFilter filter => exact setFilter_advances h filter
  | setWarningsAndErrorsOnly only => exact setWarningsAndErrorsOnly_advances h only
  | readReturned read result => exact readReturned_advances h read result
  | stop => exact stop_advances h

theorem start_filtered (log_to_file : Bool) : (start log_to_file).Filtered contains := by
  cases log_to_file <;> rfl

theorem run_filtered (log_to_file : Bool) (events : List Event) :
    (run contains log_to_file events).Filtered contains := by
  unfold run
  induction events using List.reverseRecOn with
  | nil => exact start_filtered log_to_file
  | append_singleton events event ih =>
    rw [List.foldl_append]
    exact (step_advances ih event).filtered

/-- The model with other lines, and the display of them. -/
def showing (contains : String → String → Bool) (m : DisplayModel) (lines : List LogLine) : DisplayModel :=
  { m with m_all_lines := lines, display := { rows := m.filteredLines contains lines } }

/-- After every operation the displayed lines are the filtered lines, and a view that replays what it was
told of that operation shows them. A delta and a new display do so for any old and new lines. -/
theorem display_is_filtered (contains : String → String → Bool) (log_to_file : Bool) (events : List Event)
    (event : Event) (settings : DisplayModel) (old lines : List LogLine) (force_reset : Bool) :
    Advances contains (run contains log_to_file events) (step contains (run contains log_to_file events) event) ∧
      Advances contains (settings.showing contains old)
        ((settings.showing contains old).applyDelta contains lines).1 ∧
      Becomes View.rows { rows := old } (applyDisplayLines { rows := old } lines force_reset) lines := by
  refine ⟨?_, ?_, ?_⟩
  · exact step_advances (run_filtered log_to_file events) event
  · apply applyDelta_advances
    rfl
  · exact applyDisplayLines_becomes _ lines force_reset

/-! ## The reads -/

/-- The model still reads the file. -/
structure Reads (m : DisplayModel) : Prop where
  m_log_to_file : m.m_log_to_file = true
  m_stopping : m.m_stopping = false

theorem refresh_toDebugLogModel (h : m.Reads) (full_load : Bool) :
    (m.refresh full_load).toDebugLogModel = m.toDebugLogModel.refresh full_load := by
  simp [refresh, h.m_log_to_file, h.m_stopping]

theorem applyLines_toLogModel (contains : String → String → Bool) (m : DisplayModel)
    (lines : List LogLine) (force_reset : Bool) :
    (m.applyLines contains lines force_reset).toLogModel = { m.toLogModel with m_all_lines := lines } := by
  unfold applyLines
  split <;> rfl

theorem applyDelta_toLogModel (contains : String → String → Bool) (m : DisplayModel) (lines : List LogLine) :
    (m.applyDelta contains lines).1.toLogModel =
        { m.toLogModel with m_all_lines := (m.toDebugLogModel.applyDelta lines).1 } ∧
      (m.applyDelta contains lines).2 = (m.toDebugLogModel.applyDelta lines).2 := by
  unfold applyDelta DebugLogModel.applyDelta
  split <;> exact ⟨rfl, rfl⟩

theorem install_toLogModel (m : DisplayModel) (result : ReadResult) :
    (m.install contains result).toLogModel = m.toLogModel.takeOver result.toReadResult := by
  unfold install LogModel.takeOver DebugLogModel.install
  by_cases hfull : result.full_snapshot = true
  · have hlines := (m.opened result).applyLines_toLogModel contains
      (result.lines.take (m.opened result).m_load_limit).reverse
      (result.continuity_lost || (m.opened result).m_all_lines.isEmpty)
    simp only [File.ReadResult.rows, hfull, if_true, applySnapshot, hlines]
    rfl
  · obtain ⟨hlines, hpruned⟩ := (m.opened result).applyDelta_toLogModel contains result.lines
    simp only [File.ReadResult.rows, hfull, hlines, hpruned]
    rfl

/-- A step of the model is one of the reads, which are still made after it. -/
structure Refines (m' : DisplayModel) (reads : DebugLogModel LogLine) : Prop where
  model : m'.toDebugLogModel = reads
  still : m'.Reads

theorem Refines.refresh {reads : DebugLogModel LogLine} (h : Refines m' reads) (full_load : Bool) :
    Refines (m'.refresh full_load) (reads.refresh full_load) := by
  obtain ⟨rfl, hreads⟩ := h
  refine ⟨refresh_toDebugLogModel hreads full_load, ?_⟩
  unfold DisplayModel.refresh
  split
  · exact hreads
  · exact ⟨hreads.m_log_to_file, hreads.m_stopping⟩

theorem applyLines_still (contains : String → String → Bool) (h : m.Reads) (lines : List LogLine)
    (force_reset : Bool) :
    (m.applyLines contains lines force_reset).Reads := by
  unfold applyLines
  split <;> exact ⟨h.m_log_to_file, h.m_stopping⟩

theorem applyDelta_still (contains : String → String → Bool) (h : m.Reads) (lines : List LogLine) :
    (m.applyDelta contains lines).1.Reads := by
  unfold applyDelta
  split <;> exact ⟨h.m_log_to_file, h.m_stopping⟩

theorem install_refines (contains : String → String → Bool) (h : m.Reads) (result : ReadResult) :
    Refines (m.install contains result) (m.toDebugLogModel.install result.rows) := by
  refine ⟨congrArg LogModel.toDebugLogModel (m.install_toLogModel result), ?_⟩
  unfold install
  dsimp only
  split
  · have hstill := applyLines_still contains (m := m.opened result)
      ⟨h.m_log_to_file, h.m_stopping⟩
    exact ⟨(hstill _ _).m_log_to_file, (hstill _ _).m_stopping⟩
  · have hstill := applyDelta_still contains (m := m.opened result)
      ⟨h.m_log_to_file, h.m_stopping⟩ result.lines
    exact ⟨hstill.m_log_to_file, hstill.m_stopping⟩

theorem retainLines_refines (contains : String → String → Bool) (h : m.Reads) :
    Refines (m.retainLines contains)
      (if m.m_load_limit < m.m_all_lines.length then
        { m.toDebugLogModel with
          m_all_lines := m.m_all_lines.rtake m.m_load_limit
          m_loaded_limit := min m.m_loaded_limit m.m_load_limit
          m_has_more_lines := m.m_load_limit < kMaxLoadLimit }
      else m.toDebugLogModel) := by
  unfold retainLines
  split
  · have hlines := m.applyLines_toLogModel contains (m.m_all_lines.rtake m.m_load_limit) false
    have hstill := applyLines_still contains h (m.m_all_lines.rtake m.m_load_limit) false
    refine ⟨?_, hstill.m_log_to_file, hstill.m_stopping⟩
    simp only [hlines]
  · exact ⟨rfl, h⟩

theorem setLoadLimit_refines (h : m.Reads) (limit : Int) :
    Refines (m.setLoadLimit contains limit) (m.toDebugLogModel.setLoadLimit limit) := by
  have hretained := retainLines_refines contains
    (m := { m with m_load_limit := DebugLogModel.clampLimit limit }) ⟨h.m_log_to_file, h.m_stopping⟩
  unfold setLoadLimit DebugLogModel.setLoadLimit
  dsimp only at hretained ⊢
  rw [← hretained.model]
  split
  · exact ⟨rfl, h⟩
  split
  · exact Refines.refresh ⟨rfl, hretained.still⟩ true
  · exact ⟨rfl, hretained.still⟩

theorem setActive_refines (h : m.Reads) (active : Bool) :
    Refines (m.setActive active) (m.toDebugLogModel.setActive active) := by
  unfold setActive DebugLogModel.setActive
  simp only [h.m_stopping, Bool.or_false, decide_eq_true_eq]
  split
  · exact ⟨rfl, h⟩
  split
  · apply Refines.refresh
    exact ⟨rfl, h.m_log_to_file, rfl⟩
  · exact ⟨rfl, h.m_log_to_file, rfl⟩

theorem loadMore_refines (h : m.Reads) : Refines m.loadMore m.toDebugLogModel.loadMore := by
  unfold loadMore DebugLogModel.loadMore
  split
  · exact ⟨rfl, h.m_log_to_file, h.m_stopping⟩
  · apply Refines.refresh
    exact ⟨rfl, h.m_log_to_file, h.m_stopping⟩

theorem readReturned_refines (h : m.Reads) (read : Read LogLine) {result : ReadResult}
    (hopened : result.file_opened = true) :
    Refines (m.readReturned contains read result) (m.toDebugLogModel.readReturned read result.rows) := by
  unfold readReturned DebugLogModel.readReturned
  rw [if_neg (by simp [h.m_stopping])]
  split
  · unfold rerunPending
    dsimp only
    split
    · apply Refines.refresh
      exact ⟨rfl, h.m_log_to_file, h.m_stopping⟩
    · exact ⟨rfl, h.m_log_to_file, h.m_stopping⟩
  · rename_i hcurrent
    have hactive : m.m_active = true := by
      simp only [Bool.or_eq_true, Bool.not_eq_true', not_or, Bool.not_eq_false] at hcurrent
      exact hcurrent.1
    have hinstalled := install_refines contains h result
    unfold onReadCompleted DebugLogModel.onReadCompleted
    simp only [hactive, h.m_stopping, hopened, Bool.not_true, Bool.or_false, Bool.false_eq_true, if_false,
      ← hinstalled.model]
    split
    · apply Refines.refresh
      exact ⟨rfl, hinstalled.still.m_log_to_file, hinstalled.still.m_stopping⟩
    · exact ⟨rfl, hinstalled.still.m_log_to_file, hinstalled.still.m_stopping⟩

theorem setFilter_refines (h : m.Reads) (filter : String) :
    Refines (m.setFilter contains filter) m.toDebugLogModel := by
  unfold setFilter
  split
  · exact ⟨rfl, h⟩
  · exact ⟨rfl, h.m_log_to_file, h.m_stopping⟩

theorem setWarningsAndErrorsOnly_refines (h : m.Reads) (only : Bool) :
    Refines (m.setWarningsAndErrorsOnly contains only) m.toDebugLogModel := by
  unfold setWarningsAndErrorsOnly
  split
  · exact ⟨rfl, h⟩
  · exact ⟨rfl, h.m_log_to_file, h.m_stopping⟩

/-- What an event does to the reads, where the model of the reads has it. -/
def readStep (m : DebugLogModel LogLine) : Event → Option (DebugLogModel LogLine)
  | .setActive active => some (m.setActive active)
  | .setLoadLimit limit => some (m.setLoadLimit limit)
  | .loadMore => some m.loadMore
  | .refresh full_load => some (m.refresh full_load)
  | .setFilter _ => some m
  | .setWarningsAndErrorsOnly _ => some m
  | .readReturned read result => if result.file_opened then some (m.readReturned read result.rows) else none
  | .stop => none

theorem step_refines (h : m.Reads) {event : Event} {reads : DebugLogModel LogLine}
    (hstep : readStep m.toDebugLogModel event = some reads) : Refines (step contains m event) reads := by
  cases event with
  | setActive active =>
    cases hstep
    exact setActive_refines h active
  | setLoadLimit limit =>
    cases hstep
    exact setLoadLimit_refines h limit
  | loadMore =>
    cases hstep
    exact loadMore_refines h
  | refresh full_load =>
    cases hstep
    exact Refines.refresh ⟨rfl, h⟩ full_load
  | setFilter filter =>
    cases hstep
    exact setFilter_refines h filter
  | setWarningsAndErrorsOnly only =>
    cases hstep
    exact setWarningsAndErrorsOnly_refines h only
  | readReturned read result =>
    rw [readStep, Option.ite_none_right_eq_some] at hstep
    obtain ⟨hopened, hstep⟩ := hstep
    cases hstep
    exact readReturned_refines h read hopened
  | stop => cases hstep

end DisplayModel

end GuiQml.DebugLog.Display
