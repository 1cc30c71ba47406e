import GuiQml.DebugLog.Delta
import GuiQml.Lib.Rows

/-!
# The displayed lines

The list model over the lines that are loaded: the filter, and what the views are told when a snapshot, a
delta or a limit changes the lines. A read may return anything, at any time. How a text is searched is a
parameter.
-/

namespace GuiQml.DebugLog.Display

open Rows
open File (LogLine LogModel)

/-- A result, or the reason why the file was not opened. -/
structure ReadResult extends File.ReadResult where
  file_opened : Bool := false
  error_message : String := ""

/-- The data of a row that stays never changes. -/
abbrev Lines := RowModel LogLine Empty

structure DisplayModel extends LogModel where
  m_filter : String := ""
  m_warnings_and_errors_only : Bool := false
  /-- `m_display_lines`, with what the views were told. -/
  display : Lines := { rows := [] }
  m_open_error : String := ""
  m_log_available : Bool := true
  m_log_to_file : Bool := true
  m_stopping : Bool := false

def DisplayModel.m_display_lines (m : DisplayModel) : List LogLine := m.display.rows

/-! ## What the views are told -/

/-- `new_positions`. The last of the lines with an offset wins. -/
def newPosition (lines : List LogLine) (offset : Nat) : Option Nat :=
  (lines.zipIdx.reverse.find? fun entry => entry.1.source_offset = offset).map (·.2)

/-- The first displayed row that stays, with its new position. -/
def commonStart (lines : List LogLine) : Nat → List LogLine → Option (Nat × Nat)
  | _, [] => none
  | i, line :: rest =>
    match newPosition lines line.source_offset with
    | some position =>
      if lines[position]? = some line then some (i, position) else commonStart lines (i + 1) rest
    | none => commonStart lines (i + 1) rest

def commonCount : List LogLine → List LogLine → Nat
  | line :: rest, line' :: rest' => if line = line' then commonCount rest rest' + 1 else 0
  | _, _ => 0

/-- `old_start`, `new_start` and `common_count`. -/
def commonRun (old lines : List LogLine) : Nat × Nat × Nat :=
  match commonStart lines 0 old with
  | some (old_start, new_start) =>
    (old_start, new_start, commonCount (old.drop old_start) (lines.drop new_start))
  | none => (0, 0, 0)

/-- The rows around the common run go, and then the new lines around it come. -/
def keepCommon (display : Lines) (lines : List LogLine) (old_start new_start common_count : Nat) : Lines :=
  let display :=
    if 0 < display.rows.length - old_start - common_count then
      display.removeRows (old_start + common_count) display.rows.length
    else display
  let display := if 0 < old_start then display.removeRows 0 old_start else display
  let display := if 0 < new_start then display.insertRows 0 (lines.take new_start) else display
  let new_suffix_start := new_start + common_count
  if new_suffix_start < lines.length then
    display.insertRows display.rows.length (lines.drop new_suffix_start)
  else display

def applyDisplayLines (display : Lines) (lines : List LogLine) (force_reset : Bool) : Lines :=
  if !force_reset && lines = display.rows then display
  else if force_reset then display.resetRows lines
  else if display.rows.isEmpty then
    if lines.isEmpty then display else display.insertRows 0 lines
  else if lines.isEmpty then display.removeRows 0 display.rows.length
  else
    match commonRun display.rows lines with
    | (_, _, 0) => (display.removeRows 0 display.rows.length).insertRows 0 lines
    | (old_start, new_start, common_count) => keepCommon display lines old_start new_start common_count

namespace DisplayModel

section Operations

-- `QString::contains`, for which case does not matter.
variable (contains : String → String → Bool) (m : DisplayModel)

/-! ## Filtering -/

def searchable (line : LogLine) : String :=
  line.timestamp ++ " " ++
    (if line.is_error then "error " else if line.is_warning then "warning " else "regular ") ++ line.message

def keeps (line : LogLine) : Bool :=
  if m.m_warnings_and_errors_only && !line.is_error && !line.is_warning then false
  else m.m_filter.isEmpty || contains (searchable line) m.m_filter

def filteredLines (lines : List LogLine) : List LogLine := lines.filter (m.keeps contains)

def buildDisplayLines (force_reset : Bool) : DisplayModel :=
  { m with display := applyDisplayLines m.display (m.filteredLines contains m.m_all_lines) force_reset }

def applyLines (lines : List LogLine) (force_reset : Bool) : DisplayModel :=
  let display := m.filteredLines contains lines
  if force_reset then { m with m_all_lines := lines, display := m.display.resetRows display }
  else { m with m_all_lines := lines, display := applyDisplayLines m.display display false }

/-- The model with the new lines, and whether lines were left out. -/
def applyDelta (lines : List LogLine) : DisplayModel × Bool :=
  if lines.isEmpty then (m, false)
  else
    let omitted_new_lines : Bool := m.m_load_limit < lines.length
    let lines := (lines.take m.m_load_limit).reverse
    let old_size := m.m_all_lines.length
    let old_keep_count := min old_size (m.m_load_limit - lines.length)
    let old_remove_count := old_size - old_keep_count
    let display_remove_count :=
      if 0 < old_remove_count then (m.filteredLines contains (m.m_all_lines.take old_remove_count)).length
      else 0
    let display_insert := m.filteredLines contains lines
    let display := m.display
    let display := if 0 < display_remove_count then display.removeRows 0 display_remove_count else display
    let display :=
      if display_insert.isEmpty then display else display.insertRows display.rows.length display_insert
    let retained := (m.m_all_lines.drop old_remove_count).take old_keep_count
    ({ m with display, m_all_lines := retained ++ lines }, omitted_new_lines || 0 < old_remove_count)

/-! ## Operations -/

def refresh (full_load : Bool) : DisplayModel :=
  if m.m_stopping || !m.m_log_to_file then m
  else { m with toDebugLogModel := m.toDebugLogModel.refresh full_load }

/-- The lines that the limit leaves room for. -/
def retainLines : DisplayModel :=
  if m.m_load_limit < m.m_all_lines.length then
    let retained := m.applyLines contains (m.m_all_lines.rtake m.m_load_limit) false
    { retained with
      m_loaded_limit := min m.m_loaded_limit m.m_load_limit
      m_has_more_lines := m.m_load_limit < kMaxLoadLimit }
  else m

def setLoadLimit (limit : Int) : DisplayModel :=
  let limit := DebugLogModel.clampLimit limit
  if m.m_load_limit = limit then m
  else
    let previous_limit := m.m_load_limit
    let m := { m with m_load_limit := limit }.retainLines contains
    if previous_limit < limit && m.m_active then m.refresh true else m

def setActive (active : Bool) : DisplayModel :=
  if m.m_active = active || m.m_stopping then m
  else
    let m := { m with
      m_active := active
      m_activation_generation := m.m_activation_generation + 1 }
    if active then m.refresh (m.m_loaded_limit < m.m_load_limit)
    else { m with m_refresh_pending := false, m_pending_full_load := false }

def setFilter (filter : String) : DisplayModel :=
  if m.m_filter = filter then m else { m with m_filter := filter }.buildDisplayLines contains true

def setWarningsAndErrorsOnly (warnings_and_errors_only : Bool) : DisplayModel :=
  if m.m_warnings_and_errors_only = warnings_and_errors_only then m
  else
    { m with m_warnings_and_errors_only := warnings_and_errors_only }.buildDisplayLines contains true

def loadMore : DisplayModel :=
  if kMaxLoadLimit ≤ m.m_load_limit then { m with m_has_more_lines := false }
  else { m with m_load_limit := min (m.m_load_limit + 1000) kMaxLoadLimit }.refresh true

/-- A file was opened, and the next read goes on where this one ended. -/
def opened (result : ReadResult) : DisplayModel :=
  { m with
    m_log_available := true
    m_open_error := ""
    m_file_size := some result.file_size
    m_trailing_partial := result.trailing_partial
    m_discarding_oversized_line := result.discarding_oversized_line
    m_file_anchor := result.file_anchor }

/-- A full snapshot. It resets a model that shows nothing yet, or lines of another file. -/
def applySnapshot (result : ReadResult) : DisplayModel :=
  let next_lines := (result.lines.take m.m_load_limit).reverse
  let force_reset := result.continuity_lost || m.m_all_lines.isEmpty
  { m.applyLines contains next_lines force_reset with
    m_has_more_lines := (result.has_more_lines || m.m_load_limit < result.lines.length) &&
      m.m_load_limit < kMaxLoadLimit
    m_loaded_limit := min result.snapshot_limit m.m_load_limit }

/-- The part of `onReadCompleted` that takes over the lines of a file that was opened. -/
def install (result : ReadResult) : DisplayModel :=
  let m := m.opened result
  if result.full_snapshot then m.applySnapshot contains result
  else
    let applied := m.applyDelta contains result.lines
    { applied.1 with
      m_has_more_lines := (m.m_has_more_lines || result.has_more_lines || applied.2) &&
        m.m_load_limit < kMaxLoadLimit }

/-- There is room for another read, which starts if one was asked for. -/
def rerunPending : DisplayModel :=
  let m := { m with read := none }
  if m.m_active && m.m_refresh_pending then
    { m with m_refresh_pending := false, m_pending_full_load := false }.refresh m.m_pending_full_load
  else m

def onReadCompleted (result : ReadResult) : DisplayModel :=
  if !m.m_active || m.m_stopping then m
  else if !result.file_opened then
    { m with m_log_available := false, m_open_error := result.error_message }.rerunPending
  else
    let m := m.install contains result
    let needs_wider_tail : Bool := m.m_loaded_limit < m.m_load_limit
    let run_trailing_refresh := m.m_refresh_pending || needs_wider_tail
    let do_full := m.m_pending_full_load || needs_wider_tail
    let m := { m with m_refresh_pending := false, m_pending_full_load := false, read := none }
    if run_trailing_refresh then m.refresh do_full else m

/-- A result is delivered to the model. One for an earlier activation only makes room. -/
def readReturned (read : Read LogLine) (result : ReadResult) : DisplayModel :=
  if m.m_stopping then m
  else if !m.m_active || read.activation_generation ≠ m.m_activation_generation then m.rerunPending
  else m.onReadCompleted contains result

def stop : DisplayModel :=
  if m.m_stopping then m
  else
    { m with
      m_stopping := true
      m_refresh_pending := false
      m_pending_full_load := false
      read := none }

end Operations

/-! ## Runs -/

def start (log_to_file : Bool) : DisplayModel :=
  if log_to_file then {}
  else
    { m_log_to_file := false
      m_open_error := "Writing the debug log to a file is turned off."
      m_log_available := false }

inductive Event
  | setActive (active : Bool)
  | setLoadLimit (limit : Int)
  | loadMore
  | refresh (full_load : Bool)
  | setFilter (filter : String)
  | setWarningsAndErrorsOnly (warnings_and_errors_only : Bool)
  | readReturned (read : Read LogLine) (result : ReadResult)
  | stop

variable (contains : String → String → Bool)

def step (m : DisplayModel) : Event → DisplayModel
  | .setActive active => m.setActive active
  | .setLoadLimit limit => m.setLoadLimit contains limit
  | .loadMore => m.loadMore
  | .refresh full_load => m.refresh full_load
  | .setFilter filter => m.setFilter contains filter
  | .setWarningsAndErrorsOnly only => m.setWarningsAndErrorsOnly contains only
  | .readReturned read result => m.readReturned contains read result
  | .stop => m.stop

def run (log_to_file : Bool) (events : List Event) : DisplayModel :=
  events.foldl (step contains) (start log_to_file)

end DisplayModel
end GuiQml.DebugLog.Display
