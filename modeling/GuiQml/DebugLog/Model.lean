import GuiQml.DebugLog.Reads

/-!
# The debug log model

`DebugLogModel` with the read it has in flight, and the file. The rows that are displayed, errors, the
file watcher and the end of the reader thread are left out: each refresh of the watcher is one that
somebody asks for.
-/

namespace GuiQml.DebugLog

/-- A read on the worker thread, with its result once it has looked at the file. -/
structure Read (Line : Type) where
  load_limit : Nat
  full_load : Bool
  previous_file_size : Option Nat
  activation_generation : Nat
  result : Option (ReadResult Line) := none

structure DebugLogModel (Line : Type) where
  /-- Oldest first. -/
  m_all_lines : List Line := []
  m_load_limit : Nat := 1000
  m_has_more_lines : Bool := false
  m_loaded_limit : Nat := 0
  m_file_size : Option Nat := none
  /-- There is one exactly while `m_read_in_flight`. -/
  read : Option (Read Line) := none
  m_refresh_pending : Bool := false
  m_pending_full_load : Bool := false
  m_active : Bool := false
  m_activation_generation : Nat := 0

namespace DebugLogModel

variable {Line : Type} (m : DebugLogModel Line)

def refresh (full_load : Bool) : DebugLogModel Line :=
  if !m.m_active then m
  else match m.read with
    | some _ =>
      { m with
        m_refresh_pending := true
        m_pending_full_load := m.m_pending_full_load || full_load }
    | none =>
      let read : Read Line :=
        { load_limit := m.m_load_limit
          full_load := full_load
          previous_file_size := m.m_file_size
          activation_generation := m.m_activation_generation }
      { m with read := some read }

def clampLimit (limit : Int) : Nat := (max 1 (min limit kMaxLoadLimit)).toNat

def setLoadLimit (limit : Int) : DebugLogModel Line :=
  let limit := clampLimit limit
  if m.m_load_limit = limit then m
  else
    let previous_limit := m.m_load_limit
    let m := { m with m_load_limit := limit }
    let m :=
      if limit < m.m_all_lines.length then
        { m with
          m_all_lines := m.m_all_lines.rtake limit
          m_loaded_limit := min m.m_loaded_limit limit
          m_has_more_lines := limit < kMaxLoadLimit }
      else m
    if previous_limit < limit && m.m_active then m.refresh true else m

def setActive (active : Bool) : DebugLogModel Line :=
  if m.m_active = active then m
  else
    let m := { m with
      m_active := active
      m_activation_generation := m.m_activation_generation + 1 }
    if active then m.refresh (m.m_loaded_limit < m.m_load_limit)
    else { m with m_refresh_pending := false, m_pending_full_load := false }

def loadMore : DebugLogModel Line :=
  if kMaxLoadLimit ≤ m.m_load_limit then { m with m_has_more_lines := false }
  else { m with m_load_limit := min (m.m_load_limit + 1000) kMaxLoadLimit }.refresh true

/-- The rows with the new lines, and whether lines were left out. -/
def applyDelta (lines : List Line) : List Line × Bool :=
  if lines.isEmpty then (m.m_all_lines, false)
  else
    let omitted_new_lines : Bool := m.m_load_limit < lines.length
    let lines := (lines.take m.m_load_limit).reverse
    let old_size := m.m_all_lines.length
    let old_keep_count := min old_size (m.m_load_limit - lines.length)
    let old_remove_count := old_size - old_keep_count
    ((m.m_all_lines.drop old_remove_count).take old_keep_count ++ lines,
      omitted_new_lines || 0 < old_remove_count)

/-- The part of `onReadCompleted` that takes over the result. -/
def install (result : ReadResult Line) : DebugLogModel Line :=
  let m := { m with m_file_size := some result.file_size }
  if result.full_snapshot then
    { m with
      m_all_lines := (result.lines.take m.m_load_limit).reverse
      m_has_more_lines := (result.has_more_lines || m.m_load_limit < result.lines.length) &&
        m.m_load_limit < kMaxLoadLimit
      m_loaded_limit := min result.snapshot_limit m.m_load_limit }
  else
    let applied := m.applyDelta result.lines
    { m with
      m_all_lines := applied.1
      m_has_more_lines := (m.m_has_more_lines || result.has_more_lines || applied.2) &&
        m.m_load_limit < kMaxLoadLimit }

/-- Refresh again if that was asked for or the tail is too narrow. -/
def onReadCompleted (result : ReadResult Line) : DebugLogModel Line :=
  let m := m.install result
  let needs_wider_tail : Bool := m.m_loaded_limit < m.m_load_limit
  let run_trailing_refresh := m.m_refresh_pending || needs_wider_tail
  let do_full := m.m_pending_full_load || needs_wider_tail
  let m := { m with m_refresh_pending := false, m_pending_full_load := false, read := none }
  if run_trailing_refresh then m.refresh do_full else m

/-- A result is delivered to the model. One for an earlier activation only makes room. -/
def readReturned (read : Read Line) (result : ReadResult Line) : DebugLogModel Line :=
  if !m.m_active || read.activation_generation ≠ m.m_activation_generation then
    let m := { m with read := none }
    if m.m_active && m.m_refresh_pending then
      { m with m_refresh_pending := false, m_pending_full_load := false }.refresh m.m_pending_full_load
    else m
  else m.onReadCompleted result

end DebugLogModel

/-! ## Runs -/

section Steps

variable {Line : Type} (parseLine : Nat → List UInt8 → Option Line)

structure System (Line : Type) where
  model : DebugLogModel Line := {}
  file : List UInt8 := []
  /-- How much of the file the last completed read saw. -/
  last_read : Option Nat := none

inductive Event
  | setActive (active : Bool)
  | setLoadLimit (limit : Int)
  | loadMore
  | refresh (full_load : Bool)
  | append (bytes : List UInt8)
  /-- The read in flight looks at the file. -/
  | look
  | complete

def look (s : System Line) (read : Read Line) : System Line :=
  let result := readAndFilter parseLine s.file read.load_limit read.full_load read.previous_file_size
  { s with model := { s.model with read := some { read with result := some result } } }

def complete (s : System Line) (read : Read Line) (result : ReadResult Line) : System Line :=
  { s with
    model := s.model.readReturned read result
    last_read := some result.file_size }

def step (s : System Line) : Event → System Line
  | .setActive active => { s with model := s.model.setActive active }
  | .setLoadLimit limit => { s with model := s.model.setLoadLimit limit }
  | .loadMore => { s with model := s.model.loadMore }
  | .refresh full_load => { s with model := s.model.refresh full_load }
  | .append bytes => { s with file := s.file ++ bytes }
  | .look =>
    match s.model.read with
    | some read => if read.result.isNone then look parseLine s read else s
    | none => s
  | .complete =>
    match s.model.read with
    | some read =>
      match read.result with
      | some result => complete s read result
      | none => s
    | none => s

/-- The model is active and idle, and the last completed read saw the whole file. -/
structure Settled (s : System Line) : Prop where
  active : s.model.m_active = true
  idle : s.model.read = none
  pending : s.model.m_refresh_pending = false
  whole : s.last_read = some s.file.length

/-- The rows are the last lines of the file, and it is told whether there are more. -/
structure ShowsTail (s : System Line) : Prop where
  lines : s.model.m_all_lines = (keptLines parseLine s.file).rtake s.model.m_load_limit
  more : s.model.m_has_more_lines = true ↔
    s.model.m_load_limit < (keptLines parseLine s.file).length ∧ s.model.m_load_limit < kMaxLoadLimit

end Steps

end GuiQml.DebugLog
