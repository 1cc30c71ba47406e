import Mathlib.Data.List.DropRight
import Mathlib.Data.List.Basic

/-!
# Reads of the debug log

What a forward parse of the file keeps, and what `ReadTail` and the delta read of `debuglogmodel.cpp` are
specified to return of it. How one line is parsed is a parameter. The file can always be read and only
grows, so the offset of a delta is always continued.
-/

namespace GuiQml.DebugLog

def kMaxLoadLimit : Nat := 50000

def kMaxLogLineBytes : Nat := 1024 * 1024

def MAX_DELTA_BYTES : Nat := 8 * 1024 * 1024

section Reads

-- What `ParseCompleteLines` makes of the bytes of a line at an offset, if it keeps the line.
variable {Line : Type} (parseLine : Nat → List UInt8 → Option Line)

/-! ## The forward parse -/

structure Parse (Line : Type) where
  offset : Nat := 0
  /-- The bytes since the last newline. -/
  unfinished : List UInt8 := []
  kept : List Line := []

def chopReturn (raw : List UInt8) : List UInt8 := if raw.getLast? = some 13 then raw.dropLast else raw

def Parse.feed (p : Parse Line) (byte : UInt8) : Parse Line :=
  if byte = 10 then
    { offset := p.offset + 1
      kept :=
        if p.unfinished.length ≤ kMaxLogLineBytes then
          p.kept ++ (parseLine (p.offset - p.unfinished.length) (chopReturn p.unfinished)).toList
        else p.kept }
  else { p with offset := p.offset + 1, unfinished := p.unfinished ++ [byte] }

def parse (file : List UInt8) : Parse Line := file.foldl (Parse.feed parseLine) {}

/-- The lines that a forward parse keeps, oldest first. -/
def keptLines (file : List UInt8) : List Line := (parse parseLine file).kept

theorem kept_foldl (bytes : List UInt8) (p : Parse Line) :
    p.kept <+: (bytes.foldl (Parse.feed parseLine) p).kept := by
  induction bytes generalizing p with
  | nil => exact List.prefix_refl _
  | cons byte bytes ih =>
    refine List.IsPrefix.trans ?_ (ih _)
    unfold Parse.feed
    split
    · dsimp only
      split
      · exact List.prefix_append _ _
      · exact List.prefix_refl _
    · exact List.prefix_refl _

theorem keptLines_append (file bytes : List UInt8) :
    keptLines parseLine file <+: keptLines parseLine (file ++ bytes) := by
  unfold keptLines parse
  rw [List.foldl_append]
  exact kept_foldl parseLine bytes _

/-! ## Results -/

structure ReadResult (Line : Type) where
  /-- Newest first. -/
  lines : List Line
  full_snapshot : Bool
  has_more_lines : Bool
  snapshot_limit : Nat := 0
  file_size : Nat

def readTail (file : List UInt8) (load_limit : Nat) : ReadResult Line :=
  let newest_first := (keptLines parseLine file).reverse.take (min load_limit kMaxLoadLimit + 1)
  { lines := if load_limit < newest_first.length then newest_first.dropLast else newest_first
    full_snapshot := true
    has_more_lines := load_limit < newest_first.length
    snapshot_limit := min load_limit kMaxLoadLimit
    file_size := file.length }

/-- The carried bytes of an unfinished line, none while it is discarded. -/
def previousPartial (file : List UInt8) (previous_file_size : Nat) : List UInt8 :=
  let unfinished := (parse parseLine (file.take previous_file_size)).unfinished
  if unfinished.length ≤ kMaxLogLineBytes then unfinished else []

def readDelta (file : List UInt8) (load_limit previous_file_size : Nat) : ReadResult Line :=
  let completed := (keptLines parseLine file).drop
    (keptLines parseLine (file.take previous_file_size)).length
  let lines := completed.reverse.take (min load_limit kMaxLoadLimit + 1)
  { lines
    full_snapshot := false
    has_more_lines := load_limit < lines.length
    file_size := file.length }

/-- A delta, unless a full load is asked for or too much was appended. -/
def readAndFilter (file : List UInt8) (load_limit : Nat) (full_load : Bool)
    (previous_file_size : Option Nat) : ReadResult Line :=
  match full_load, previous_file_size with
  | false, some previous_file_size =>
    let appended_size := file.length - previous_file_size
    if MAX_DELTA_BYTES < appended_size ||
        MAX_DELTA_BYTES - appended_size < (previousPartial parseLine file previous_file_size).length then
      readTail parseLine file load_limit
    else readDelta parseLine file load_limit previous_file_size
  | _, _ => readTail parseLine file load_limit

end Reads

end GuiQml.DebugLog
