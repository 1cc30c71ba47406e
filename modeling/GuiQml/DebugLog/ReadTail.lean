import GuiQml.DebugLog.Reads
import GuiQml.Lib.Lines

/-!
# Reading the end of the log

`ReadTail` and `ParseCompleteLines` of `debuglogmodel.cpp`, on the bytes of a file that opens and can be
read. Nobody cancels the read. What is parsed from the text of one line is a parameter.
-/

namespace GuiQml.DebugLog.File

open Lines

def TAIL_READ_BLOCK_SIZE : Nat := 64 * 1024

theorem tail_read_block_size_pos : 0 < TAIL_READ_BLOCK_SIZE := by decide

def FILE_ANCHOR_SIZE : Nat := 256

def newline : UInt8 := 10

/-- What is parsed from the text of a line. -/
structure Fields where
  timestamp : String
  message : String
  is_error : Bool
  is_warning : Bool
  deriving DecidableEq, Repr

structure LogLine extends Fields where
  source_offset : Nat
  deriving DecidableEq, Repr

structure ReadResult where
  /-- Newest first. -/
  lines : List LogLine := []
  full_snapshot : Bool := false
  continuity_lost : Bool := false
  has_more_lines : Bool := false
  snapshot_limit : Nat := 0
  file_size : Nat := 0
  file_anchor : List UInt8 := []
  trailing_partial : List UInt8 := []
  discarding_oversized_line : Bool := false
  deriving DecidableEq, Repr

def readAnchor (file : List UInt8) (file_size : Nat) : List UInt8 :=
  let anchor_size := min file_size FILE_ANCHOR_SIZE
  if anchor_size = 0 then [] else slice file (file_size - anchor_size) file_size

section Parse

variable (fields : List UInt8 → Fields)

/-- The entry of a line, where it is not dropped. -/
def logLine (offset : Nat) (raw : List UInt8) : Option LogLine :=
  let entry : LogLine := { fields raw with source_offset := offset }
  if !entry.message.isEmpty || !entry.timestamp.isEmpty then some entry else none

/-- `scan_end` stands behind what is not scanned yet. A step for each byte is enough. -/
def parseLoop (bytes : List UInt8) (base_offset max_filtered_lines : Nat) :
    Nat → Nat → List LogLine → List LogLine
  | 0, _, result => result
  | steps + 1, scan_end, result =>
    if 0 < scan_end ∧ result.length < max_filtered_lines then
      let terminator := if bytes[scan_end - 1]? = some newline then scan_end - 1 else scan_end
      let previous_newline := lastIndexOf newline bytes terminator
      let start := (previous_newline.map (· + 1)).getD 0
      let result :=
        if terminator - start ≤ kMaxLogLineBytes then
          result ++ (logLine fields (base_offset + start) (chopReturn (slice bytes start terminator))).toList
        else result
      match previous_newline with
      | some n => parseLoop bytes base_offset max_filtered_lines steps (n + 1) result
      | none => result
    else result

def parseCompleteLines (bytes : List UInt8) (base_offset max_filtered_lines : Nat) : List LogLine :=
  parseLoop fields bytes base_offset max_filtered_lines bytes.length bytes.length []

/-! ## The backward scan -/

/-- The position behind the last newline before `cursor`. A step for each byte is enough. -/
def completeEnd (block_size : Nat) (file : List UInt8) : Nat → Nat → Option Nat
  | 0, _ => none
  | steps + 1, cursor =>
    if 0 < cursor then
      let start := cursor - block_size
      let chunk := slice file start cursor
      match lastIndexOf newline chunk chunk.length with
      | some last_newline => some (start + last_newline + 1)
      | none => completeEnd block_size file steps start
    else none

structure Scan where
  cursor : Nat
  newest_first : List LogLine := []
  carry : List UInt8 := []
  discarding_oversized_line : Bool := false

/-- What a block adds to, none while the whole block belongs to a line that is discarded. -/
def blockData (s : Scan) (chunk : List UInt8) : Option (List UInt8) :=
  if s.discarding_oversized_line then
    (lastIndexOf newline chunk chunk.length).map fun preceding_newline => chunk.take (preceding_newline + 1)
  else some (chunk ++ s.carry)

def parseSegment (target : Nat) (s : Scan) (segment : List UInt8) (segment_offset : Nat) : List LogLine :=
  s.newest_first ++
    parseCompleteLines fields segment segment_offset (target - s.newest_first.length)

/-- One block: its complete lines are parsed, and its first line is carried on to the one before. -/
def scanBlock (block_size : Nat) (file : List UInt8) (target : Nat) (s : Scan) : Scan :=
  let start := s.cursor - block_size
  let chunk := slice file start s.cursor
  match blockData s chunk with
  | none => { s with cursor := start }
  | some data =>
    if start = 0 then
      { cursor := start, newest_first := parseSegment fields target s data start }
    else
      match data.idxOf? newline with
      | none =>
        if kMaxLogLineBytes < data.length then
          { s with cursor := start, carry := [], discarding_oversized_line := true }
        else { s with cursor := start, carry := data, discarding_oversized_line := false }
      | some first_newline =>
        let carry := data.take (first_newline + 1)
        let oversized : Bool := kMaxLogLineBytes < carry.length
        { cursor := start
          newest_first :=
            parseSegment fields target s (data.drop (first_newline + 1)) (start + first_newline + 1)
          carry := if oversized then [] else carry
          discarding_oversized_line := oversized }

def scanTail (block_size : Nat) (file : List UInt8) (target : Nat) : Nat → Scan → Scan
  | 0, s => s
  | steps + 1, s =>
    if 0 < s.cursor ∧ s.newest_first.length < target then
      scanTail block_size file target steps (scanBlock fields block_size file target s)
    else s

def readTail (file : List UInt8) (load_limit : Nat) : ReadResult :=
  let complete_end := completeEnd TAIL_READ_BLOCK_SIZE file file.length file.length
  let partial_start := complete_end.getD 0
  let partial_size := file.length - partial_start
  let result : ReadResult :=
    { full_snapshot := true
      snapshot_limit := min load_limit kMaxLoadLimit
      file_size := file.length
      file_anchor := readAnchor file file.length
      discarding_oversized_line := kMaxLogLineBytes < partial_size
      trailing_partial :=
        if kMaxLogLineBytes < partial_size then [] else slice file partial_start file.length }
  match complete_end with
  | none => result
  | some complete_end =>
    let target := min load_limit kMaxLoadLimit + 1
    let newest_first :=
      (scanTail fields TAIL_READ_BLOCK_SIZE file target complete_end { cursor := complete_end }).newest_first
    { result with
      has_more_lines := load_limit < newest_first.length
      lines := if load_limit < newest_first.length then newest_first.dropLast else newest_first }

end Parse

end GuiQml.DebugLog.File
