import GuiQml.DebugLog.Blocks
import GuiQml.DebugLog.Tail
import GuiQml.Lib.Reach

/-!
# Reading on from a saved offset

`ReadAndFilter` of `debuglogmodel.cpp` and what `onReadCompleted` takes over of its result. The log only
grows. A read sees it as it is at one moment.
-/

namespace GuiQml.DebugLog.File

open Lines TailWindow

section Delta

variable (fields : List UInt8 → Fields)

/-! ## One read -/

/-- The bytes at the old end of the file are those that were there. -/
def continuityValid (file : List UInt8) (previous_file_size : Nat)
    ( previous_partial previous_anchor : List UInt8) : Bool :=
  decide (previous_file_size ≤ file.length) && decide ( previous_partial.length ≤ previous_file_size) &&
    (previous_file_size == 0 ||
      (!previous_anchor.isEmpty && decide (previous_anchor.length ≤ previous_file_size) &&
        slice file (previous_file_size - previous_anchor.length) previous_file_size == previous_anchor))

/-- The delta with the bytes behind the last newline that was read, which stand at `combined_offset`. -/
def readCombined (file : List UInt8) (load_limit : Nat) (combined : List UInt8) (combined_offset : Nat) :
    ReadResult :=
  let result : ReadResult :=
    { file_size := file.length
      file_anchor := readAnchor file file.length }
  match lastIndexOf newline combined combined.length with
  | none =>
    if combined.length ≤ kMaxLogLineBytes then { result with trailing_partial := combined }
    else { result with discarding_oversized_line := true }
  | some last_newline =>
    let trailing_partial := combined.drop (last_newline + 1)
    let oversized : Bool := kMaxLogLineBytes < trailing_partial.length
    let lines := parseCompleteLines fields (combined.take (last_newline + 1)) combined_offset
      (min load_limit kMaxLoadLimit + 1)
    { result with
      trailing_partial := if oversized then [] else trailing_partial
      discarding_oversized_line := oversized
      lines
      has_more_lines := load_limit < lines.length }

def readDelta (file : List UInt8) (load_limit previous_file_size : Nat) ( previous_partial : List UInt8)
    (previous_discarding_oversized_line : Bool) : ReadResult :=
  let appended := slice file previous_file_size file.length
  if previous_discarding_oversized_line then
    match appended.idxOf? newline with
    | none =>
      { file_size := file.length
        file_anchor := readAnchor file file.length
        discarding_oversized_line := true }
    | some n =>
      readCombined fields file load_limit (appended.drop (n + 1)) (previous_file_size + n + 1)
  else
    readCombined fields file load_limit ( previous_partial ++ appended)
      (previous_file_size - previous_partial.length)

def readAndFilter (file : List UInt8) (load_limit : Nat) (full_load : Bool)
    (previous_file_size : Option Nat) ( previous_partial : List UInt8)
    (previous_discarding_oversized_line : Bool) (previous_anchor : List UInt8) : ReadResult :=
  match full_load, previous_file_size with
  | false, some previous_file_size =>
    if !continuityValid file previous_file_size previous_partial previous_anchor then
      { readTail fields file load_limit with continuity_lost := true }
    else
      let appended_size := file.length - previous_file_size
      if MAX_DELTA_BYTES < appended_size || MAX_DELTA_BYTES - appended_size < previous_partial.length then
        readTail fields file load_limit
      else
        readDelta fields file load_limit previous_file_size previous_partial
          previous_discarding_oversized_line
  | _, _ => readTail fields file load_limit

/-! ## The model -/

structure LogModel extends DebugLogModel LogLine where
  m_trailing_partial : List UInt8 := []
  m_discarding_oversized_line : Bool := false
  m_file_anchor : List UInt8 := []

/-- The part of a result that the rows are made of. -/
def ReadResult.rows (result : ReadResult) : DebugLog.ReadResult LogLine where
  lines := result.lines
  full_snapshot := result.full_snapshot
  has_more_lines := result.has_more_lines
  snapshot_limit := result.snapshot_limit
  file_size := result.file_size

/-- The part of `onReadCompleted` that takes over the result. -/
def LogModel.takeOver (m : LogModel) (result : ReadResult) : LogModel where
  toDebugLogModel := m.toDebugLogModel.install result.rows
  m_trailing_partial := result.trailing_partial
  m_discarding_oversized_line := result.discarding_oversized_line
  m_file_anchor := result.file_anchor

structure Log where
  model : LogModel
  file : List UInt8

inductive LogEvent
  | append (bytes : List UInt8)
  /-- A read, up to where its result is taken over. -/
  | read (full_load : Bool)

def Log.readNow (s : Log) (full_load : Bool) : ReadResult :=
  readAndFilter fields s.file s.model.m_load_limit full_load s.model.m_file_size
    s.model.m_trailing_partial s.model.m_discarding_oversized_line s.model.m_file_anchor

def Log.step (s : Log) : LogEvent → Log
  | .append bytes => { s with file := s.file ++ bytes }
  | .read full_load => { s with model := s.model.takeOver (s.readNow fields full_load) }

/-- The model holds the rows and the unfinished line that a forward pass over `file` returns. -/
structure Holds (file : List UInt8) (m : LogModel) : Prop where
  lines : m.m_all_lines = (survivors fields file).rtake m.m_load_limit
  trailing_partial : m.m_trailing_partial =
    if (unfinished newline file).length ≤ kMaxLogLineBytes then unfinished newline file else []
  discarding : m.m_discarding_oversized_line = decide (kMaxLogLineBytes < (unfinished newline file).length)
  size : m.m_file_size = some file.length
  anchor : m.m_file_anchor = readAnchor file file.length

/-- It also tells whether there are more lines. -/
structure Tells (file : List UInt8) (m : LogModel) : Prop extends Holds fields file m where
  more : m.m_has_more_lines = decide (m.m_load_limit < (survivors fields file).length)

/-- It tells so below the largest limit, and there it never does. -/
structure Matches (file : List UInt8) (m : LogModel) : Prop extends Holds fields file m where
  more : m.m_has_more_lines = decide (m.m_load_limit < (survivors fields file).length ∧
    m.m_load_limit < kMaxLoadLimit)

/-- A full read returns its specified result. -/
def FullReadHolds (s : Log) : LogEvent → Prop
  | .append _ => True
  | .read full_load => (s.readNow fields full_load).full_snapshot = true →
      readTail fields s.file s.model.m_load_limit = forwardTail fields s.file s.model.m_load_limit

end Delta

variable {fields : List UInt8 → Fields}

/-! ## The offset can be trusted -/

theorem length_readAnchor {file : List UInt8} {size : Nat} (h : size ≤ file.length) :
    (readAnchor file size).length = min size FILE_ANCHOR_SIZE := by
  unfold readAnchor
  dsimp only
  split
  · rename_i hzero
    rw [hzero]
    rfl
  · rw [length_slice_of_le h]
    omega

theorem continuityValid_append (file bytes partial_line : List UInt8) (h : partial_line.length ≤ file.length) :
    continuityValid (file ++ bytes) file.length partial_line (readAnchor file file.length) = true := by
  have hanchor := length_readAnchor (Nat.le_refl file.length)
  by_cases hempty : file.length = 0
  · rw [hempty] at h
    simp [continuityValid, hempty, Nat.le_zero.mp h]
  · have hpos : 0 < min file.length FILE_ANCHOR_SIZE := by
      unfold FILE_ANCHOR_SIZE
      omega
    have hsame : slice (file ++ bytes) (file.length - (readAnchor file file.length).length) file.length =
        readAnchor file file.length := by
      rw [slice_append_left le_rfl, hanchor, readAnchor, if_neg hpos.ne']
    have hnonempty : (readAnchor file file.length).isEmpty = false := by
      rw [List.isEmpty_eq_false_iff, ← List.length_pos_iff, hanchor]
      exact hpos
    have hle : (readAnchor file file.length).length ≤ file.length := by omega
    simp [continuityValid, hsame, hnonempty, hle, h]

/-! ## The delta -/

theorem readCombined_eq (file : List UInt8) {load_limit : Nat} (hlimit : load_limit ≤ kMaxLoadLimit)
    (combined : List UInt8) (offset : Nat) :
    readCombined fields file load_limit combined offset =
      { lines := ((lines newline offset combined).filterMap (keep fields)).reverse.take (load_limit + 1)
        has_more_lines := load_limit < ((lines newline offset combined).filterMap (keep fields)).length
        file_size := file.length
        file_anchor := readAnchor file file.length
        trailing_partial := if (unfinished newline combined).length ≤ kMaxLogLineBytes
          then unfinished newline combined else []
        discarding_oversized_line := kMaxLogLineBytes < (unfinished newline combined).length } := by
  unfold readCombined
  cases hlast : lastIndexOf newline combined combined.length with
  | none =>
    have hnone := lastIndexOf_none hlast
    rw [slice_whole le_rfl] at hnone
    rw [lines_of_not_mem hnone, unfinished_of_not_mem hnone]
    dsimp only
    split
    · rename_i hsmall
      simp [not_lt.mpr hsmall]
    · rename_i hlarge
      simp [not_le.mp hlarge]
  | some n =>
    obtain ⟨hn, hnewline, hbehind⟩ := lastIndexOf_some hlast
    have hclosed : Closed newline (combined.take (n + 1)) := by
      rw [take_closed_line (Nat.zero_le n) hnewline, List.take_zero, List.nil_append]
      exact closed_concat _
    have hdrop : newline ∉ combined.drop (n + 1) := by
      rwa [slice, List.take_length] at hbehind
    have hsplit := List.take_append_drop (n + 1) combined
    have hlines : lines newline offset combined = lines newline offset (combined.take (n + 1)) := by
      conv_lhs => rw [← hsplit]
      rw [lines_append_closed hclosed, lines_of_not_mem hdrop, List.append_nil]
    have hunfinished : unfinished newline combined = combined.drop (n + 1) := by
      conv_lhs => rw [← hsplit]
      rw [unfinished_append_closed hclosed, unfinished_of_not_mem hdrop]
    dsimp only
    rw [hlines, hunfinished, parseCompleteLines_eq fields hclosed, Nat.min_eq_left hlimit, List.length_take,
      List.length_reverse]
    have hmore : load_limit < min (load_limit + 1)
        ((lines newline offset (combined.take (n + 1))).filterMap (keep fields)).length ↔
        load_limit < ((lines newline offset (combined.take (n + 1))).filterMap (keep fields)).length := by
      omega
    by_cases hlarge : kMaxLogLineBytes < (combined.drop (n + 1)).length
    · simp only [hmore, hlarge, decide_true, if_true, not_le.mpr hlarge, if_false]
    · simp only [hmore, hlarge, decide_false, Bool.false_eq_true, if_false, not_lt.mp hlarge, if_true]

/-- The delta, as a forward pass over the longer file sees it. -/
def deltaResult (file new : List UInt8) (added : List LogLine) (load_limit : Nat) : ReadResult where
  lines := added.reverse.take (load_limit + 1)
  has_more_lines := load_limit < added.length
  file_size := (file ++ new).length
  file_anchor := readAnchor (file ++ new) (file ++ new).length
  trailing_partial := if (unfinished newline (file ++ new)).length ≤ kMaxLogLineBytes
    then unfinished newline (file ++ new) else []
  discarding_oversized_line := kMaxLogLineBytes < (unfinished newline (file ++ new)).length

theorem survivors_append (file new : List UInt8) :
    survivors fields (file ++ new) = survivors fields file ++
      (lines newline (file.length - (unfinished newline file).length)
        (unfinished newline file ++ new)).filterMap (keep fields) := by
  rw [survivors, lines_append_unfinished, List.filterMap_append, Nat.zero_add]
  rfl

theorem lines_discarded {file line rest : List UInt8} (hline : newline ∉ line)
    (hlarge : kMaxLogLineBytes < (unfinished newline file).length) :
    (lines newline (file.length - (unfinished newline file).length)
        (unfinished newline file ++ (line ++ newline :: rest))).filterMap (keep fields) =
      (lines newline (file.length + line.length + 1) rest).filterMap (keep fields) := by
  have hnone : newline ∉ unfinished newline file ++ line := by
    rw [List.mem_append, not_or]
    exact ⟨not_mem_unfinished file, hline⟩
  have hle : (unfinished newline file).length ≤ file.length := length_unfinished_le file
  have hdropped : keep fields (file.length - (unfinished newline file).length,
      unfinished newline file ++ line) = none := by
    rw [keep, List.length_append, if_neg (by omega)]
  rw [← List.append_assoc, lines_line hnone, List.filterMap_cons, hdropped, List.length_append,
    show file.length - (unfinished newline file).length + ((unfinished newline file).length + line.length) + 1 =
      file.length + line.length + 1 by omega]

theorem readDelta_eq (file new : List UInt8) {load_limit : Nat} (hlimit : load_limit ≤ kMaxLoadLimit) :
    ∃ added, survivors fields (file ++ new) = survivors fields file ++ added ∧
      readDelta fields (file ++ new) load_limit file.length
          (if (unfinished newline file).length ≤ kMaxLogLineBytes then unfinished newline file else [])
          (kMaxLogLineBytes < (unfinished newline file).length) =
        deltaResult file new added load_limit := by
  have happended : slice (file ++ new) file.length (file ++ new).length = new := by
    rw [slice, List.take_length, List.drop_left]
  refine ⟨_, survivors_append file new, ?_⟩
  by_cases hlarge : kMaxLogLineBytes < (unfinished newline file).length
  · simp only [readDelta, hlarge, decide_true, if_true, happended, deltaResult]
    by_cases hmem : newline ∈ new
    · obtain ⟨line, rest, rfl, hline⟩ := List.eq_append_cons_of_mem hmem
      have hclosed : Closed newline (file ++ (line ++ [newline])) := by
        rw [← List.append_assoc]
        exact closed_concat _
      have hunfinished : unfinished newline (file ++ (line ++ newline :: rest)) = unfinished newline rest := by
        have hsplit : file ++ (line ++ newline :: rest) = file ++ (line ++ [newline]) ++ rest := by simp
        rw [hsplit, unfinished_append_closed hclosed]
      have hdrop : (line ++ newline :: rest).drop (line.length + 1) = rest := by
        rw [← List.drop_drop, List.drop_left]
        rfl
      simp only [idxOf?_line hline, hdrop]
      rw [readCombined_eq _ hlimit, lines_discarded hline hlarge, hunfinished]
    · have hindex : new.idxOf? newline = none := by simpa using hmem
      have hunfinished : unfinished newline (file ++ new) = unfinished newline file ++ new :=
        unfinished_append_of_not_mem hmem file
      have hnone : newline ∉ unfinished newline file ++ new := by
        rw [List.mem_append, not_or]
        exact ⟨not_mem_unfinished file, hmem⟩
      have hlonger : kMaxLogLineBytes < (unfinished newline file ++ new).length := by
        rw [List.length_append]
        omega
      simp only [hindex, hunfinished, lines_of_not_mem hnone, hlonger, not_le.mpr hlonger, if_false,
        decide_true, List.filterMap_nil, List.reverse_nil, List.take_nil, List.length_nil, Nat.not_lt_zero,
        decide_false]
  · simp only [readDelta, hlarge, decide_false, Bool.false_eq_true, if_false, not_lt.mp hlarge, if_true,
      happended, deltaResult]
    rw [readCombined_eq _ hlimit, ← unfinished_append]

/-! ## What is taken over -/

theorem rtake_extend {α : Type*} (old new : List α) (n : Nat) :
    (old.rtake n ++ new.rtake (n + 1)).rtake n = (old ++ new).rtake n := by
  have hsame : (old.rtake n).rtake n = old.rtake n := by rw [rtake_rtake, Nat.min_self]
  rcases Nat.lt_or_ge n new.length with hlt | hge
  · have hlen : n ≤ (new.rtake (n + 1)).length := by
      rw [length_rtake]
      omega
    rw [rtake_append_of_le hlen, rtake_append_of_le hlt.le, rtake_rtake, Nat.min_eq_left (Nat.le_succ n)]
  · rw [rtake_of_length_le (by omega : new.length ≤ n + 1)]
    exact rtake_append_congr hsame

@[simp] theorem takeOver_load_limit (m : LogModel) (result : ReadResult) :
    (m.takeOver result).m_load_limit = m.m_load_limit := by
  simp only [LogModel.takeOver, DebugLogModel.install]
  split <;> rfl

theorem Matches.takeOver_delta {file new : List UInt8} {m : LogModel} (h : Matches fields file m)
    {added : List LogLine} (hadded : survivors fields (file ++ new) = survivors fields file ++ added) :
    Matches fields (file ++ new) (m.takeOver (deltaResult file new added m.m_load_limit)) := by
  have hle : m.m_all_lines.length ≤ m.m_load_limit := by
    rw [h.lines, length_rtake]
    omega
  have hrows : m.m_all_lines.length = min m.m_load_limit (survivors fields file).length := by
    rw [h.lines, length_rtake]
  have happlied : { m.toDebugLogModel with m_file_size := some (file ++ new).length }.applyDelta
      (added.reverse.take (m.m_load_limit + 1)) = _ := DebugLogModel.applyDelta_eq hle
  have hnewest : (added.reverse.take (m.m_load_limit + 1)).reverse = added.rtake (m.m_load_limit + 1) := by
    rw [List.rtake_eq_reverse_take_reverse]
  rw [hnewest] at happlied
  refine ⟨⟨?_, rfl, rfl, rfl, rfl⟩, ?_⟩
  · simp only [LogModel.takeOver, DebugLogModel.install, ReadResult.rows, deltaResult, Bool.false_eq_true,
      if_false, happlied]
    rw [h.lines, rtake_extend, hadded]
  · simp only [LogModel.takeOver, DebugLogModel.install, ReadResult.rows, deltaResult, Bool.false_eq_true,
      if_false, happlied]
    simp only [h.more, hadded, List.length_append, hrows, length_rtake]
    rw [← Bool.decide_or, ← Bool.decide_or, ← Bool.decide_and, decide_eq_decide]
    omega

theorem Matches.takeOver_full (file : List UInt8) (m : LogModel) (lost : Bool) :
    Matches fields file
      (m.takeOver { forwardTail fields file m.m_load_limit with continuity_lost := lost }) := by
  refine ⟨⟨?_, rfl, rfl, rfl, rfl⟩, ?_⟩
  · simp only [LogModel.takeOver, DebugLogModel.install, ReadResult.rows, forwardTail, if_true]
    rw [List.take_take, Nat.min_self, List.rtake_eq_reverse_take_reverse]
  · change ((decide (m.m_load_limit < (survivors fields file).length) ||
        decide (m.m_load_limit < ((survivors fields file).reverse.take m.m_load_limit).length)) &&
        decide (m.m_load_limit < kMaxLoadLimit)) =
          decide (m.m_load_limit < (survivors fields file).length ∧ m.m_load_limit < kMaxLoadLimit)
    rw [← Bool.decide_or, ← Bool.decide_and, decide_eq_decide, List.length_take]
    omega

theorem readTail_full_snapshot (file : List UInt8) (load_limit : Nat) :
    (readTail fields file load_limit).full_snapshot = true := by
  unfold readTail
  dsimp only
  split <;> rfl

theorem Holds.readNow {file new : List UInt8} {m : LogModel} (h : Holds fields file m)
    (hlimit : m.m_load_limit ≤ kMaxLoadLimit) (full_load : Bool) :
    (∃ added, survivors fields (file ++ new) = survivors fields file ++ added ∧
        Log.readNow fields ⟨m, file ++ new⟩ full_load = deltaResult file new added m.m_load_limit) ∨
      (Log.readNow fields ⟨m, file ++ new⟩ full_load = readTail fields (file ++ new) m.m_load_limit ∧
        (full_load = true ∨ MAX_DELTA_BYTES < new.length + m.m_trailing_partial.length)) := by
  have hpartial : m.m_trailing_partial.length ≤ file.length := by
    rw [h.trailing_partial]
    split
    · exact length_unfinished_le file
    · exact Nat.zero_le _
  have hvalid := continuityValid_append file new m.m_trailing_partial hpartial
  simp only [Log.readNow, readAndFilter, h.size, h.anchor]
  cases full_load with
  | true => exact .inr ⟨rfl, .inl rfl⟩
  | false =>
    simp only [hvalid, Bool.not_true, Bool.false_eq_true, if_false]
    split
    · rename_i hmuch
      simp only [List.length_append, Bool.or_eq_true, decide_eq_true_eq] at hmuch
      exact .inr ⟨rfl, .inr (by omega)⟩
    · obtain ⟨added, hadded, hresult⟩ := @readDelta_eq fields file new _ hlimit
      rw [h.trailing_partial, h.discarding, hresult]
      exact .inl ⟨added, hadded, rfl⟩

/-- A read takes over what a forward pass returns, whichever way it goes. -/
theorem Matches.read {file new : List UInt8} {m : LogModel} (h : Matches fields file m)
    (hlimit : m.m_load_limit ≤ kMaxLoadLimit) (full_load : Bool)
    (hfull : FullReadHolds fields ⟨m, file ++ new⟩ (.read full_load)) :
    Matches fields (file ++ new) (m.takeOver (Log.readNow fields ⟨m, file ++ new⟩ full_load)) := by
  rcases @Holds.readNow fields file new m h.toHolds hlimit full_load with ⟨added, hadded, hread⟩ | ⟨hread, -⟩
  · rw [hread]
    exact h.takeOver_delta hadded
  · have hspecified := hfull (by rw [hread]; exact readTail_full_snapshot _ _)
    rw [hread, hspecified]
    exact takeOver_full _ m false

/-! ## Runs -/

/-- What is held is a forward pass over the part of the file that was read. -/
def Covered (fields : List UInt8 → Fields) (s : Log) : Prop :=
  s.model.m_load_limit ≤ kMaxLoadLimit ∧
    ∃ file new, s.file = file ++ new ∧ Matches fields file s.model

theorem Covered.step {s : Log} (h : Covered fields s) (e : LogEvent) (hfull : FullReadHolds fields s e) :
    Covered fields (s.step fields e) := by
  obtain ⟨model, bytes⟩ := s
  obtain ⟨hlimit, file, new, rfl, hmatches⟩ := h
  cases e with
  | append more => exact ⟨hlimit, file, new ++ more, by simp [Log.step], hmatches⟩
  | read full_load =>
    refine ⟨by simpa [Log.step] using hlimit, file ++ new, [], by simp [Log.step], ?_⟩
    exact hmatches.read hlimit full_load hfull

/-- After each read of a run the model holds what a forward pass over the whole file returns. -/
theorem matches_after_read {start s : Log} (hstart : Matches fields start.file start.model)
    (hlimit : start.model.m_load_limit ≤ kMaxLoadLimit)
    (hrun : Reach.Reaches (Log.step fields) (FullReadHolds fields) start s) (full_load : Bool)
    (hread : FullReadHolds fields s (.read full_load)) :
    Matches fields s.file (s.step fields (.read full_load)).model := by
  have hcovered : Covered fields s :=
    hrun.invariant ⟨hlimit, start.file, [], by simp, hstart⟩ fun _ e h hfull => h.step e hfull
  obtain ⟨model, bytes⟩ := s
  obtain ⟨hlimit, file, new, rfl, hmatches⟩ := hcovered
  exact hmatches.read hlimit full_load hread

/-- The model of an empty log with room for two lines. -/
def emptyLog : Log := ⟨{ m_load_limit := 2, m_file_size := some 0 }, []⟩

/-- A line is cut in two by a read. -/
theorem matches_after_read_cut :
    Matches plainFields [97, newline, 98, 99, newline]
      ([.append [97, newline, 98], .read false, .append [99, newline], .read false].foldl
        (Log.step plainFields) emptyLog).model := by
  have hstart : Matches plainFields emptyLog.file emptyLog.model := ⟨⟨rfl, rfl, rfl, rfl, rfl⟩, rfl⟩
  have hempty : Reach.Reaches (Log.step plainFields) (FullReadHolds plainFields) emptyLog emptyLog := .refl
  have hbegun := hempty.snoc (.append [97, newline, 98]) trivial
  have hread := hbegun.snoc (.read false) fun h => absurd h (by decide)
  have hended := hread.snoc (.append [99, newline]) trivial
  exact matches_after_read hstart (by decide) hended false fun h => absurd h (by decide)

/-! ## At the largest limit -/

def letters : Nat → List UInt8
  | 0 => []
  | n + 1 => 97 :: newline :: letters n

theorem length_lines_letters (base n : Nat) :
    ((lines newline base (letters n)).filterMap (keep plainFields)).length = n := by
  induction n generalizing base with
  | zero => rfl
  | succ n ih =>
    have hline : newline ∉ [(97 : UInt8)] := by decide
    have hfirst := lines_line hline base (letters n)
    have hkeep : keep plainFields (base, [97]) = some (entry plainFields (base, [97])) := rfl
    rw [List.singleton_append] at hfirst
    rw [letters, hfirst, List.filterMap_cons, hkeep, List.length_cons, ih]

theorem takeOver_silent {m : LogModel} (h : m.m_load_limit = kMaxLoadLimit) (result : ReadResult) :
    (m.takeOver result).m_has_more_lines = false := by
  simp only [LogModel.takeOver, DebugLogModel.install]
  split <;> simp [h]

/-- A model that holds what a forward pass returns. -/
def snapshotOf (fields : List UInt8 → Fields) (file : List UInt8) (load_limit : Nat) (more : Bool) :
    LogModel where
  m_all_lines := (survivors fields file).rtake load_limit
  m_load_limit := load_limit
  m_has_more_lines := more
  m_file_size := some file.length
  m_trailing_partial :=
    if (unfinished newline file).length ≤ kMaxLogLineBytes then unfinished newline file else []
  m_discarding_oversized_line := kMaxLogLineBytes < (unfinished newline file).length
  m_file_anchor := readAnchor file file.length

theorem snapshotOf_holds (file : List UInt8) (load_limit : Nat) (more : Bool) :
    Holds fields file (snapshotOf fields file load_limit more) := ⟨rfl, rfl, rfl, rfl, rfl⟩

theorem Holds.readNow_same {file : List UInt8} {m : LogModel} (h : Holds fields file m)
    (hlimit : m.m_load_limit ≤ kMaxLoadLimit) :
    (Log.readNow fields ⟨m, file⟩ false).full_snapshot = false := by
  have hread := @Holds.readNow fields file [] m h hlimit false
  rw [List.append_nil] at hread
  rcases hread with ⟨added, -, hread⟩ | ⟨-, hlarge⟩
  · rw [hread]
    rfl
  · exfalso
    have hpartial : m.m_trailing_partial.length ≤ kMaxLogLineBytes := by
      rw [h.trailing_partial]
      split
      · assumption
      · exact Nat.zero_le _
    simp only [Bool.false_eq_true, List.length_nil, Nat.zero_add, false_or] at hlarge
    unfold MAX_DELTA_BYTES at hlarge
    unfold kMaxLogLineBytes at hpartial
    omega

/-- At the largest limit a read forgets that there are more lines. -/
theorem Tells.forgotten {file : List UInt8} {m : LogModel} (hlimit : m.m_load_limit = kMaxLoadLimit)
    (hmore : kMaxLoadLimit < (survivors fields file).length) (full_load : Bool) :
    ¬Tells fields file (Log.step fields ⟨m, file⟩ (.read full_load)).model := by
  intro hafter
  have hflag := hafter.more
  simp only [Log.step, takeOver_load_limit] at hflag
  rw [takeOver_silent hlimit, hlimit, decide_eq_true hmore] at hflag
  cases hflag

theorem not_tells_at_largest_limit :
    ∃ start : Log, start.model.m_load_limit = kMaxLoadLimit ∧ Tells plainFields start.file start.model ∧
      FullReadHolds plainFields start (.read false) ∧
      ¬Tells plainFields start.file (start.step plainFields (.read false)).model := by
  have hcount : (survivors plainFields (letters (kMaxLoadLimit + 1))).length = kMaxLoadLimit + 1 :=
    length_lines_letters 0 _
  generalize letters (kMaxLoadLimit + 1) = file at hcount
  have hmore : kMaxLoadLimit < (survivors plainFields file).length := by omega
  have hholds := @snapshotOf_holds plainFields file kMaxLoadLimit true
  refine ⟨⟨snapshotOf plainFields file kMaxLoadLimit true, file⟩, rfl,
    ⟨hholds, (decide_eq_true hmore).symm⟩, fun hfull => ?_, Tells.forgotten rfl hmore false⟩
  rw [hholds.readNow_same le_rfl] at hfull
  cases hfull

end GuiQml.DebugLog.File
