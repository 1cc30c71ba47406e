import GuiQml.DebugLog.Model
import GuiQml.Lib.TailWindow
import Mathlib.Logic.Relation

/-!
# The rows are the end of the log

The rows with the three limits are a window on the lines that the file keeps up to the saved offset. A
model that is active and idle was loaded up to its limit. This fails in two ways, which the runs here are
spared: `m_loaded_limit` stays above the limit when a lower limit drops no row, so rows that a delta drops
later still count as loaded, and at the largest limit it is forgotten that there are more lines.
-/

namespace GuiQml.DebugLog

open TailWindow

variable {Line : Type} {parseLine : Nat → List UInt8 → Option Line}

/-! ## Results of reads -/

section Results

variable {limit : Nat}

theorem readTail_spec (parseLine : Nat → List UInt8 → Option Line) (file : List UInt8)
    (hlimit : limit ≤ kMaxLoadLimit) :
    (readTail parseLine file limit).lines = (keptLines parseLine file).reverse.take limit ∧
      (readTail parseLine file limit).has_more_lines = decide (limit < (keptLines parseLine file).length) ∧
      (readTail parseLine file limit).snapshot_limit = limit := by
  unfold readTail
  dsimp only
  rw [Nat.min_eq_left hlimit, List.length_take, List.length_reverse]
  refine ⟨?_, ?_, rfl⟩
  · split
    · rw [List.dropLast_eq_take, List.take_take, List.length_take, List.length_reverse]
      congr 1
      omega
    · rw [List.take_of_length_le, List.take_of_length_le]
      · rw [List.length_reverse]
        omega
      · rw [List.length_reverse]
        omega
  · rw [decide_eq_decide]
    omega

theorem readDelta_spec (parseLine : Nat → List UInt8 → Option Line) (file : List UInt8) (n : Nat)
    (hlimit : limit ≤ kMaxLoadLimit) : ∃ new,
    keptLines parseLine file = keptLines parseLine (file.take n) ++ new ∧
      (readDelta parseLine file limit n).lines.reverse = new.rtake (limit + 1) ∧
      (readDelta parseLine file limit n).has_more_lines = decide (limit < new.length) := by
  obtain ⟨new, hnew⟩ : keptLines parseLine (file.take n) <+: keptLines parseLine file := by
    have := keptLines_append parseLine (file.take n) (file.drop n)
    rwa [List.take_append_drop] at this
  refine ⟨new, hnew.symm, ?_, ?_⟩
  · unfold readDelta
    rw [← hnew, List.drop_left, List.rtake_eq_reverse_take_reverse, Nat.min_eq_left hlimit]
  · unfold readDelta
    dsimp only
    rw [← hnew, List.drop_left, List.length_take, List.length_reverse, Nat.min_eq_left hlimit,
      decide_eq_decide]
    omega

end Results

/-! ## The window of a model -/

namespace DebugLogModel

variable {m : DebugLogModel Line} {all new : List Line} {limit : Int}

def window (m : DebugLogModel Line) : Window Line where
  items := m.m_all_lines
  capacity := m.m_load_limit
  loaded := m.m_loaded_limit
  more := m.m_has_more_lines

def setWindow (m : DebugLogModel Line) (w : Window Line) : DebugLogModel Line :=
  { m with
    m_all_lines := w.items
    m_load_limit := w.capacity
    m_loaded_limit := w.loaded
    m_has_more_lines := w.more }

theorem clampLimit_le (limit : Int) : clampLimit limit ≤ kMaxLoadLimit := by
  unfold clampLimit kMaxLoadLimit
  omega

theorem applyDelta_eq {lines : List Line} (h : m.m_all_lines.length ≤ m.m_load_limit) :
    m.applyDelta lines = ((m.m_all_lines ++ lines.reverse).rtake m.m_load_limit,
      decide (m.m_load_limit < (m.m_all_lines ++ lines.reverse).length)) := by
  unfold applyDelta
  split
  · rename_i hempty
    rw [List.isEmpty_iff.mp hempty, List.reverse_nil, List.append_nil, rtake_of_length_le h,
      decide_eq_false (not_lt.mpr h)]
  · have hlength : (lines.take m.m_load_limit).reverse.length = min m.m_load_limit lines.length := by
      rw [List.length_reverse, List.length_take]
    dsimp only
    rw [hlength]
    congr 1
    · rcases Nat.le_total m.m_load_limit lines.length with hle | hle
      · rw [rtake_append_of_le (by rwa [List.length_reverse]), List.rtake_eq_reverse_take_reverse,
          List.reverse_reverse, List.take_eq_nil_of_eq_nil]
        · rw [List.nil_append]
        · rw [List.drop_eq_nil_iff]
          omega
      · rw [rtake_append_of_ge (by rwa [List.length_reverse]), List.take_of_length_le hle, List.length_reverse]
        congr 1
        rw [List.take_of_length_le]
        · unfold List.rtake
          congr 1
          omega
        · rw [List.length_drop]
          omega
    · rw [← Bool.decide_or, decide_eq_decide, List.length_append, List.length_reverse]
      omega

theorem install_readTail {file : List UInt8} {n : Nat} (hn : n ≤ kMaxLoadLimit) :
    m.install (readTail parseLine file n) =
      { m.setWindow (m.window.snapshot kMaxLoadLimit n (keptLines parseLine file)) with
        m_file_size := some file.length } := by
  obtain ⟨hlines, hmore, hlimit⟩ := readTail_spec parseLine file hn
  unfold install
  have hsnapshot : (readTail parseLine file n).full_snapshot = true := rfl
  rw [if_pos hsnapshot, hlines, hmore, hlimit, List.take_take, ← List.rtake_eq_reverse_take_reverse]
  unfold setWindow Window.snapshot window
  have htold : (decide (n < (keptLines parseLine file).length) ||
      decide (m.m_load_limit < ((keptLines parseLine file).reverse.take n).length)) =
      decide (min n m.m_load_limit < (keptLines parseLine file).length) := by
    rw [← Bool.decide_or, decide_eq_decide, List.length_take, List.length_reverse]
    omega
  dsimp only
  rw [htold, Nat.min_comm m.m_load_limit n]
  rfl

theorem install_readDelta {file : List UInt8} {n previous : Nat} (h : m.m_all_lines.length ≤ m.m_load_limit)
    (hnew : (readDelta parseLine file n previous).lines.reverse = new.rtake (n + 1))
    (hmore : (readDelta parseLine file n previous).has_more_lines = decide (n < new.length)) :
    m.install (readDelta parseLine file n previous) =
      { m.setWindow (m.window.extend kMaxLoadLimit n new) with m_file_size := some file.length } := by
  unfold install
  have hdelta : (readDelta parseLine file n previous).full_snapshot = false := rfl
  rw [if_neg (by rw [hdelta]; exact Bool.false_ne_true)]
  have happlied : { m with m_file_size := some file.length }.applyDelta
      (readDelta parseLine file n previous).lines = _ := applyDelta_eq h
  rw [hnew] at happlied
  rw [show (readDelta parseLine file n previous).file_size = file.length from rfl, happlied, hmore]
  rfl

end DebugLogModel

/-! ## Invariant -/

variable {s : System Line}

/-- The lines that the saved offset covers. -/
def coveredLines (parseLine : Nat → List UInt8 → Option Line) (s : System Line) : List Line :=
  keptLines parseLine (s.file.take (s.model.m_file_size.getD 0))

/-- What holds whether or not the model goes on to refresh. -/
structure Core (parseLine : Nat → List UInt8 → Option Line) (s : System Line) : Prop where
  fits : s.model.window.Fits kMaxLoadLimit (coveredLines parseLine s)
  size : s.model.m_file_size.getD 0 ≤ s.file.length
  read : ∀ read, s.model.read = some read →
    read.load_limit ≤ kMaxLoadLimit ∧ read.previous_file_size = s.model.m_file_size ∧
      ∀ result, read.result = some result → ∃ n ≤ s.file.length, s.model.m_file_size.getD 0 ≤ n ∧
        result =
          readAndFilter parseLine (s.file.take n) read.load_limit read.full_load read.previous_file_size

structure Inv (parseLine : Nat → List UInt8 → Option Line) (s : System Line) : Prop
    extends Core parseLine s where
  idle : s.model.m_active = true → s.model.read = none →
    s.model.m_load_limit ≤ s.model.m_loaded_limit ∧ s.last_read = s.model.m_file_size
  stale : ∀ read, s.model.m_active = true → s.model.read = some read →
    read.activation_generation ≠ s.model.m_activation_generation → s.model.m_refresh_pending = true

theorem Core.refresh (h : Core parseLine s) (full_load : Bool) :
    Inv parseLine { s with model := s.model.refresh full_load } := by
  unfold DebugLogModel.refresh
  split
  · rename_i hinactive
    rw [Bool.not_eq_true'] at hinactive
    exact ⟨h, fun hactive => (by cases hinactive.symm.trans hactive),
      fun _ hactive => (by cases hinactive.symm.trans hactive)⟩
  split
  · rename_i read hsome
    exact ⟨⟨h.fits, h.size, h.read⟩, fun _ hnone => (by cases hsome.symm.trans hnone), fun _ _ _ _ => rfl⟩
  · refine ⟨⟨h.fits, h.size, fun read hread => ?_⟩, (fun _ hnone => by cases hnone), fun read _ hread hstale => ?_⟩
    · obtain rfl := Option.some.inj hread
      exact ⟨h.fits.capacity_le, rfl, fun _ hnone => by cases hnone⟩
    · obtain rfl := Option.some.inj hread
      exact absurd rfl hstale

/-- A lower limit that drops no row does not make a forgotten remark count. -/
def LowersTold (parseLine : Nat → List UInt8 → Option Line) (s : System Line) (limit : Nat) : Prop :=
  limit < s.model.m_load_limit → s.model.m_all_lines.length ≤ limit → limit ≤ s.model.m_loaded_limit →
    s.model.m_all_lines.length < (coveredLines parseLine s).length → s.model.m_has_more_lines = true

theorem Core.setWindow (h : Core parseLine s) {w : Window Line}
    (hfits : w.Fits kMaxLoadLimit (coveredLines parseLine s)) :
    Core parseLine { s with model := s.model.setWindow w } :=
  ⟨hfits, h.size, h.read⟩

theorem Inv.setLoadLimit {limit : Int} (h : Inv parseLine s)
    (hlowers : LowersTold parseLine s (DebugLogModel.clampLimit limit)) :
    Inv parseLine { s with model := s.model.setLoadLimit limit } := by
  have hfits := h.fits.resize (DebugLogModel.clampLimit_le limit) hlowers
  unfold DebugLogModel.setLoadLimit
  dsimp only
  generalize DebugLogModel.clampLimit limit = n at hfits ⊢
  split
  · exact h
  rename_i hchanged
  have hresized : (if n < s.model.m_all_lines.length then
      { s.model with
        m_all_lines := s.model.m_all_lines.rtake n
        m_load_limit := n
        m_has_more_lines := decide (n < kMaxLoadLimit)
        m_loaded_limit := min s.model.m_loaded_limit n }
      else { s.model with m_load_limit := n }) =
      s.model.setWindow (s.model.window.resize kMaxLoadLimit n) := by
    unfold Window.resize DebugLogModel.window
    dsimp only
    split <;> rfl
  rw [hresized]
  have hcore := h.setWindow hfits
  split
  · exact hcore.refresh true
  · rename_i hlower
    refine ⟨hcore, fun hactive hidle => ?_, h.stale⟩
    obtain ⟨hloaded, hlast⟩ := h.idle hactive hidle
    have hle : n ≤ s.model.m_load_limit := by
      by_contra hlt
      exact hlower (Bool.and_eq_true_iff.mpr ⟨decide_eq_true (not_le.mp hlt), hactive⟩)
    refine ⟨?_, hlast⟩
    unfold Window.resize DebugLogModel.window DebugLogModel.setWindow
    dsimp only
    split
    · exact Nat.le_min.mpr ⟨hle.trans hloaded, le_refl n⟩
    · exact hle.trans hloaded

theorem Inv.setActive {active : Bool} (h : Inv parseLine s) :
    Inv parseLine { s with model := s.model.setActive active } := by
  unfold DebugLogModel.setActive
  dsimp only
  split
  · exact h
  split
  · exact Core.refresh (s := { s with model := { s.model with
      m_active := active, m_activation_generation := s.model.m_activation_generation + 1 } })
      ⟨h.fits, h.size, h.read⟩ _
  · rename_i hinactive
    rw [Bool.not_eq_true] at hinactive
    exact ⟨⟨h.fits, h.size, h.read⟩, fun hactive => (by cases hinactive.symm.trans hactive),
      fun _ hactive => (by cases hinactive.symm.trans hactive)⟩

theorem Inv.loadMore (h : Inv parseLine s) :
    Inv parseLine { s with model := s.model.loadMore } := by
  unfold DebugLogModel.loadMore
  have hcapacity : s.model.m_load_limit ≤ kMaxLoadLimit := h.fits.capacity_le
  split
  · rename_i hceiling
    exact ⟨⟨h.fits.quiet (le_antisymm hcapacity hceiling), h.size, h.read⟩, h.idle, h.stale⟩
  · rename_i hbelow
    have hle : s.model.m_load_limit ≤ min (s.model.m_load_limit + 1000) kMaxLoadLimit := by omega
    have hfits := h.fits.resize (n := min (s.model.m_load_limit + 1000) kMaxLoadLimit) (by omega)
      fun hlower => absurd hle (not_le.mpr hlower)
    have hresized : s.model.window.resize kMaxLoadLimit (min (s.model.m_load_limit + 1000) kMaxLoadLimit) =
        { s.model.window with capacity := min (s.model.m_load_limit + 1000) kMaxLoadLimit } :=
      if_neg (not_lt.mpr (h.fits.length_le.trans hle))
    rw [hresized] at hfits
    exact (h.setWindow hfits).refresh true

theorem Inv.append {bytes : List UInt8} (h : Inv parseLine s) :
    Inv parseLine { s with file := s.file ++ bytes } := by
  have hcovered : coveredLines parseLine { s with file := s.file ++ bytes } = coveredLines parseLine s := by
    unfold coveredLines
    rw [List.take_append_of_le_length h.size]
  have hlength : s.file.length ≤ (s.file ++ bytes).length := by
    rw [List.length_append]
    exact Nat.le_add_right _ _
  refine ⟨⟨hcovered ▸ h.fits, h.size.trans hlength, fun read hread => ?_⟩, h.idle, h.stale⟩
  obtain ⟨hlimit, hprevious, hresult⟩ := h.read read hread
  refine ⟨hlimit, hprevious, fun result hsome => ?_⟩
  obtain ⟨n, hn, hsize, heq⟩ := hresult result hsome
  refine ⟨n, hn.trans hlength, hsize, ?_⟩
  rwa [List.take_append_of_le_length hn]

theorem Inv.look {read : Read Line} (h : Inv parseLine s) (hread : s.model.read = some read) :
    Inv parseLine (look parseLine s read) := by
  obtain ⟨hlimit, hprevious, -⟩ := h.read read hread
  refine ⟨⟨h.fits, h.size, fun other hother => ?_⟩, (fun _ hnone => by cases hnone),
    fun other hactive hother hstale => ?_⟩
  · obtain rfl := Option.some.inj hother
    refine ⟨hlimit, hprevious, fun result hresult => ⟨s.file.length, le_refl _, h.size, ?_⟩⟩
    have hwhole : (GuiQml.DebugLog.look parseLine s read).file.take s.file.length = s.file := List.take_length
    rw [hwhole]
    exact (Option.some.inj hresult).symm
  · obtain rfl := Option.some.inj hother
    exact h.stale read hactive hread hstale

/-- A delta that leaves lines out was read, and is applied, within what is loaded. -/
def LosesUnloaded (s : System Line) (read : Read Line) (result : ReadResult Line) : Prop :=
  result.full_snapshot = false →
    (result.has_more_lines = true → s.model.m_loaded_limit ≤ read.load_limit) ∧
      ((s.model.applyDelta result.lines).2 = true → s.model.m_loaded_limit ≤ s.model.m_load_limit)

theorem Core.install {read : Read Line} {result : ReadResult Line} (h : Core parseLine s)
    (hread : s.model.read = some read) (hresult : read.result = some result)
    (hloses : LosesUnloaded s read result) :
    Core parseLine { s with model := { s.model.install result with
      m_refresh_pending := false, m_pending_full_load := false, read := none } } ∧
      (s.model.install result).m_file_size = some result.file_size := by
  obtain ⟨hlimit, hprevious, hlooked⟩ := h.read read hread
  obtain ⟨n, hn, hsize, heq⟩ := hlooked result hresult
  have hlength : (s.file.take n).length = n := by
    rw [List.length_take]
    exact Nat.min_eq_left hn
  have htail : result = readTail parseLine (s.file.take n) read.load_limit →
      Core parseLine { s with model := { s.model.install result with
        m_refresh_pending := false, m_pending_full_load := false, read := none } } ∧
        (s.model.install result).m_file_size = some result.file_size := by
    rintro rfl
    rw [DebugLogModel.install_readTail hlimit, hlength]
    refine ⟨⟨h.fits.snapshot, hn, fun _ hnone => (by cases hnone)⟩, ?_⟩
    exact congrArg some hlength.symm
  have hfits := h.fits
  rw [hprevious] at heq
  unfold coveredLines at hfits
  unfold readAndFilter at heq
  split at heq
  · rename_i previous _ hsome
    rw [hsome, Option.getD_some] at hfits
    rw [hsome, Option.getD_some] at hsize
    dsimp only at heq
    split at heq
    · exact htail heq
    obtain ⟨new, hnew, hlines, hmore⟩ :=
      readDelta_spec parseLine (s.file.take n) previous hlimit
    rw [List.take_take, Nat.min_eq_left hsize] at hnew
    obtain ⟨hread, hlost⟩ := hloses (heq ▸ rfl)
    rw [DebugLogModel.applyDelta_eq h.fits.length_le] at hlost
    rw [← heq] at hlines hmore
    have hextended : (s.model.window.extend kMaxLoadLimit read.load_limit new).Fits kMaxLoadLimit
        (keptLines parseLine (s.file.take n)) := by
      rw [hnew]
      exact hfits.extend (fun hleft => hread (hmore.trans (decide_eq_true hleft)))
        fun hleft => hlost (decide_eq_true (hlines ▸ hleft))
    rw [heq, DebugLogModel.install_readDelta h.fits.length_le (heq ▸ hlines) (heq ▸ hmore), hlength]
    refine ⟨⟨hextended, hn, fun _ hnone => (by cases hnone)⟩, ?_⟩
    exact congrArg some hlength.symm
  · exact htail heq

theorem Inv.complete {read : Read Line} {result : ReadResult Line} (h : Inv parseLine s)
    (hread : s.model.read = some read) (hresult : read.result = some result)
    (hloses : s.model.m_active = true → read.activation_generation = s.model.m_activation_generation →
      LosesUnloaded s read result) : Inv parseLine (complete s read result) := by
  unfold GuiQml.DebugLog.complete DebugLogModel.readReturned
  dsimp only
  split
  · rename_i hdropped
    have hcore : ∀ pending full : Bool, Core parseLine { s with
        model := { s.model with read := none, m_refresh_pending := pending, m_pending_full_load := full }
        last_read := some result.file_size } :=
      fun _ _ => ⟨h.fits, h.size, fun _ hnone => (by cases hnone)⟩
    split
    · exact (hcore false false).refresh _
    · rename_i hquiet
      have hinactive : s.model.m_active = true → False := by
        intro hactive
        rw [hactive] at hdropped
        have hstale : read.activation_generation ≠ s.model.m_activation_generation := by
          simpa using hdropped
        rw [hactive, h.stale read hactive hread hstale] at hquiet
        exact hquiet rfl
      exact ⟨hcore _ _, fun hactive => (hinactive hactive).elim, fun _ hactive => (hinactive hactive).elim⟩
  · rename_i hcurrent
    rw [Bool.or_eq_true, not_or, Bool.not_eq_true', Bool.not_eq_false, decide_eq_true_eq, not_not] at hcurrent
    obtain ⟨hcore, hsize⟩ := h.install hread hresult (hloses hcurrent.1 hcurrent.2)
    have hcore' : Core parseLine { s with
        model := { s.model.install result with
          m_refresh_pending := false, m_pending_full_load := false, read := none }
        last_read := some result.file_size } := ⟨hcore.fits, hcore.size, hcore.read⟩
    unfold DebugLogModel.onReadCompleted
    dsimp only
    split
    · exact hcore'.refresh _
    · rename_i hdone
      rw [Bool.or_eq_true, not_or, decide_eq_true_eq] at hdone
      exact ⟨hcore', fun _ _ => ⟨not_lt.mp hdone.2, hsize.symm⟩, fun _ _ hnone => (by cases hnone)⟩

/-! ## Runs -/

/-- The steps that do not run into a forgotten limit or a forgotten remark. -/
def Careful (parseLine : Nat → List UInt8 → Option Line) (s : System Line) : Event → Prop
  | .setLoadLimit limit => LowersTold parseLine s (DebugLogModel.clampLimit limit)
  | .complete => ∀ read result, s.model.read = some read → read.result = some result →
      s.model.m_active = true → read.activation_generation = s.model.m_activation_generation →
      LosesUnloaded s read result
  | _ => True

theorem Inv.step {e : Event} (h : Inv parseLine s) (hcareful : Careful parseLine s e) :
    Inv parseLine (step parseLine s e) := by
  cases e with
  | setActive active => exact h.setActive
  | setLoadLimit limit => exact h.setLoadLimit hcareful
  | loadMore => exact h.loadMore
  | refresh full_load => exact h.refresh full_load
  | append bytes => exact h.append
  | look =>
    dsimp only [GuiQml.DebugLog.step]
    split
    · rename_i read hread
      split
      · exact h.look hread
      · exact h
    · exact h
  | complete =>
    dsimp only [GuiQml.DebugLog.step]
    split
    · rename_i read hread
      split
      · rename_i result hresult
        exact h.complete hread hresult (hcareful read result hread hresult)
      · exact h
    · exact h

theorem inv_start : Inv parseLine ({} : System Line) where
  fits :=
    { capacity_le := show 1000 ≤ 50000 by decide
      length_le := Nat.zero_le _
      length_le_all := Nat.zero_le _
      loaded := rfl
      more := fun hmore => by cases hmore
      told := fun hloaded => absurd hloaded (show ¬1000 ≤ 0 by decide)
      silent := fun hceiling => absurd hceiling (show ¬1000 = 50000 by decide) }
  size := le_refl _
  read _ hnone := by cases hnone
  idle hactive := by cases hactive
  stale _ hactive := by cases hactive

/-- A run from a new model, each of whose steps is allowed. -/
def Reaches (parseLine : Nat → List UInt8 → Option Line) (Allowed : System Line → Event → Prop) :
    System Line → Prop :=
  Relation.ReflTransGen (fun s s' => ∃ e, Allowed s e ∧ s' = step parseLine s e) {}

theorem inv_run (h : Reaches parseLine (Careful parseLine) s) : Inv parseLine s := by
  induction h with
  | refl => exact inv_start
  | tail _ hstep ih =>
    obtain ⟨e, hcareful, rfl⟩ := hstep
    exact ih.step hcareful

theorem showsTail_of_settled (h : Reaches parseLine (Careful parseLine) s) (hsettled : Settled s) :
    ShowsTail parseLine s := by
  have hinv := inv_run h
  obtain ⟨hloaded, hlast⟩ := hinv.idle hsettled.active hsettled.idle
  have hcovered : coveredLines parseLine s = keptLines parseLine s.file := by
    unfold coveredLines
    rw [← hlast, hsettled.whole, Option.getD_some, List.take_length]
  obtain ⟨hlines, hmore⟩ := hinv.fits.window hloaded
  rw [hcovered] at hlines hmore
  exact ⟨hlines, hmore⟩

/-- Every line is kept, as its offset. -/
def keepOffset (offset : Nat) (_ : List UInt8) : Option Nat := some offset

/-- Three lines are appended, read and shown, then two more in a catch-up read. -/
theorem showsTail_of_settled_catch_up :
    ShowsTail keepOffset (([.append [10, 10, 10], .setActive true, .look, .complete,
      .append [10, 10], .refresh false, .look, .complete] : List Event).foldl (step keepOffset) {}) := by
  have hlook : Reaches keepOffset (Careful keepOffset) (([.append [10, 10, 10], .setActive true,
      .look] : List Event).foldl (step keepOffset) {}) :=
    ((Relation.ReflTransGen.refl.tail ⟨.append [10, 10, 10], trivial, rfl⟩).tail
      ⟨.setActive true, trivial, rfl⟩).tail ⟨.look, trivial, rfl⟩
  have hshown := hlook.tail ⟨.complete, fun read result hread hresult _ _ => by
    obtain rfl := Option.some.inj hread
    obtain rfl := Option.some.inj hresult
    exact fun hdelta => (by cases hdelta), rfl⟩
  have hlook' : Reaches keepOffset (Careful keepOffset) _ :=
    ((hshown.tail ⟨.append [10, 10], trivial, rfl⟩).tail ⟨.refresh false, trivial, rfl⟩).tail
      ⟨.look, trivial, rfl⟩
  refine showsTail_of_settled (hlook'.tail ⟨.complete, fun read result hread hresult _ _ => ?_, rfl⟩)
    ⟨rfl, rfl, rfl, rfl⟩
  obtain rfl := Option.some.inj hread
  obtain rfl := Option.some.inj hresult
  exact fun _ => ⟨fun _ => by decide, fun _ => by decide⟩

/-- A limit that is lowered to one row, a line more, and a limit that is raised again while hidden. -/
theorem not_showsTail_after_hidden_growth :
    ∃ s, Reaches keepOffset (fun _ _ => True) s ∧ Settled s ∧ ¬ShowsTail keepOffset s := by
  have hreaches : ∀ (events : List Event) (s : System Nat), Reaches keepOffset (fun _ _ => True) s →
      Reaches keepOffset (fun _ _ => True) (events.foldl (step keepOffset) s) := by
    intro events
    induction events with
    | nil => exact fun _ h => h
    | cons e events ih => exact fun s h => ih _ (h.tail ⟨e, trivial, rfl⟩)
  refine ⟨_, hreaches [.append [10], .setActive true, .look, .complete, .setLoadLimit 1, .append [10],
    .refresh false, .look, .complete, .setActive false, .setLoadLimit 2, .setActive true, .look,
    .complete] _ .refl, ⟨rfl, rfl, rfl, rfl⟩, fun h => ?_⟩
  exact absurd h.lines (by decide)

end GuiQml.DebugLog
