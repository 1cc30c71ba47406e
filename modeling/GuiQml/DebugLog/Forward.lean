import GuiQml.DebugLog.ReadTail

/-!
# The forward pass

What one pass over the whole file keeps, and `ParseCompleteLines` against it.
-/

namespace GuiQml.DebugLog.File

open Lines

variable (fields : List UInt8 → Fields)

/-- The entry of a line, where it is not too long and not dropped. -/
def keep (line : Nat × List UInt8) : Option LogLine :=
  if line.2.length ≤ kMaxLogLineBytes then logLine fields line.1 (chopReturn line.2) else none

/-- What survives a forward pass, oldest first. -/
def survivors (file : List UInt8) : List LogLine := (lines newline 0 file).filterMap (keep fields)

/-- What a forward pass returns. -/
def forwardTail (file : List UInt8) (load_limit : Nat) : ReadResult where
  lines := (survivors fields file).reverse.take load_limit
  full_snapshot := true
  has_more_lines := load_limit < (survivors fields file).length
  snapshot_limit := min load_limit kMaxLoadLimit
  file_size := file.length
  file_anchor := readAnchor file file.length
  trailing_partial :=
    if (unfinished newline file).length ≤ kMaxLogLineBytes then unfinished newline file else []
  discarding_oversized_line := kMaxLogLineBytes < (unfinished newline file).length

/-! ## Complete lines -/

theorem take_toList_append {α : Type*} (entry : Option α) (rest : List α) {n : Nat} (h : 0 < n) :
    (entry.toList ++ rest).take n = entry.toList ++ rest.take (n - entry.toList.length) := by
  cases entry with
  | none => rfl
  | some a =>
    obtain ⟨m, rfl⟩ := Nat.exists_eq_succ_of_ne_zero h.ne'
    simp

theorem reverse_filterMap_concat {α β : Type*} (f : α → Option β) (xs : List α) (x : α) :
    ((xs ++ [x]).filterMap f).reverse = (f x).toList ++ (xs.filterMap f).reverse := by
  rw [List.filterMap_append, List.reverse_append]
  cases hx : f x <;> simp [hx]

theorem take_closed_line {bytes : List UInt8} {start stop : Nat} (hstart : start ≤ stop)
    (hstop : bytes[stop]? = some newline) :
    bytes.take (stop + 1) = bytes.take start ++ (slice bytes start stop ++ [newline]) := by
  have hlen : stop < bytes.length := (List.getElem?_eq_some_iff.mp hstop).1
  have hlast : slice bytes stop (stop + 1) = [newline] := by
    rw [slice, List.take_add_one, hstop, List.drop_append, List.drop_take, Nat.sub_self]
    simp [Nat.min_eq_left hlen.le]
  rw [← hlast, slice_append hstart (by omega), ← slice_zero, ← slice_zero, slice_append (Nat.zero_le _) (by omega)]

theorem lines_closed_line {bytes : List UInt8} {start stop base : Nat} (hstart : start ≤ stop)
    (hstop : bytes[stop]? = some newline) (hclosed : Closed newline (bytes.take start))
    (hline : newline ∉ slice bytes start stop) :
    lines newline base (bytes.take (stop + 1)) =
      lines newline base (bytes.take start) ++ [(base + start, slice bytes start stop)] := by
  have hlen : stop < bytes.length := (List.getElem?_eq_some_iff.mp hstop).1
  rw [take_closed_line hstart hstop, lines_append_closed hclosed, lines_single hline, List.length_take,
    Nat.min_eq_left (by omega)]

theorem keep_slice {bytes : List UInt8} {start stop : Nat} (base : Nat) (hstop : stop ≤ bytes.length)
    (result : List LogLine) :
    (if stop - start ≤ kMaxLogLineBytes then
        result ++ (logLine fields (base + start) (chopReturn (slice bytes start stop))).toList
      else result) = result ++ (keep fields (base + start, slice bytes start stop)).toList := by
  simp only [keep, length_slice_of_le hstop]
  split <;> simp

theorem parseLoop_eq (bytes : List UInt8) (base max steps scan_end : Nat) (result : List LogLine)
    (hsteps : scan_end ≤ steps) (hend : scan_end ≤ bytes.length)
    (hclosed : Closed newline (bytes.take scan_end)) :
    parseLoop fields bytes base max steps scan_end result = result ++
      ((lines newline base (bytes.take scan_end)).filterMap (keep fields)).reverse.take
        (max - result.length) := by
  induction steps generalizing scan_end result with
  | zero =>
    obtain rfl : scan_end = 0 := by omega
    simp [parseLoop, lines, scan]
  | succ steps ih =>
    rw [parseLoop]
    split
    · rename_i hscan
      obtain ⟨stop, rfl⟩ : ∃ stop, scan_end = stop + 1 := ⟨scan_end - 1, by omega⟩
      have hstop : bytes[stop]? = some newline := by
        have hne : bytes.take (stop + 1) ≠ [] := by
          rw [ne_eq, ← List.length_eq_zero_iff, List.length_take]
          omega
        have hlast := hclosed.split hne
        rw [List.length_take, Nat.min_eq_left hend, Nat.add_sub_cancel,
          List.getElem?_take_of_lt (by omega)] at hlast
        exact hlast
      simp only [Nat.add_sub_cancel, hstop, if_true]
      rw [keep_slice fields base (by omega)]
      cases hprev : lastIndexOf newline bytes stop with
      | none =>
        -- The first line of the part.
        have hline := lastIndexOf_none hprev
        have hlines := @lines_closed_line bytes 0 stop base (Nat.zero_le _) hstop closed_nil hline
        rw [hlines, reverse_filterMap_concat, take_toList_append _ _ (by omega)]
        simp [lines, scan]
      | some n =>
        obtain ⟨hn, hnewline, hline⟩ := lastIndexOf_some hprev
        have hfront : Closed newline (bytes.take (n + 1)) := by
          rw [take_closed_line (Nat.zero_le n) hnewline, List.take_zero, List.nil_append]
          exact closed_concat _
        have hlines := @lines_closed_line bytes (n + 1) stop base hn hstop hfront hline
        rw [hlines, reverse_filterMap_concat, take_toList_append _ _ (by omega)]
        simp only [Option.map_some, Option.getD_some]
        rw [ih (n + 1) _ (by omega) (by omega) hfront, List.append_assoc, List.length_append, Nat.sub_sub]
    · rename_i hscan
      by_cases hzero : scan_end = 0
      · subst hzero
        simp [lines, scan]
      · have hfull : max - result.length = 0 := by omega
        rw [hfull, List.take_zero, List.append_nil]

theorem parseCompleteLines_eq {bytes : List UInt8} (h : Closed newline bytes) (base max : Nat) :
    parseCompleteLines fields bytes base max =
      ((lines newline base bytes).filterMap (keep fields)).reverse.take max := by
  have hall : bytes.take bytes.length = bytes := List.take_length
  rw [parseCompleteLines, parseLoop_eq fields bytes base max _ _ _ le_rfl le_rfl (by rwa [hall]), hall]
  rfl

end GuiQml.DebugLog.File
