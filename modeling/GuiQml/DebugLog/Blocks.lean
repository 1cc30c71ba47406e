import GuiQml.DebugLog.Forward

/-!
# The backward scan against the forward pass

`ReadTail` finds what a forward pass finds, but for lines of exactly the size limit that begin at a block
boundary: with its newline such a line is a carry above the limit, and is discarded.
-/

namespace GuiQml.DebugLog.File

open Lines

variable {fields : List UInt8 → Fields} {block_size : Nat} {file : List UInt8}

/-- The line is exactly as long as the limit, and begins at a block boundary behind which the scan goes on.
`complete_end` is where the last complete line ends. -/
def AtBoundary (block_size complete_end : Nat) (line : Nat × List UInt8) : Prop :=
  line.2.length = kMaxLogLineBytes ∧ 0 < line.1 ∧ (complete_end - line.1) % block_size = 0

instance (complete_end : Nat) (line : Nat × List UInt8) :
    Decidable (AtBoundary block_size complete_end line) :=
  inferInstanceAs (Decidable (_ ∧ _ ∧ _))

/-- The entry that the backward scan finds. -/
def keepScanned (fields : List UInt8 → Fields) (block_size complete_end : Nat) (line : Nat × List UInt8) :
    Option LogLine :=
  if AtBoundary block_size complete_end line then none else keep fields line

/-! ## The complete part -/

theorem completeEnd_eq (hblock : 0 < block_size) (steps cursor : Nat) (hsteps : cursor ≤ steps)
    (hcursor : cursor ≤ file.length) :
    completeEnd block_size file steps cursor = (lastIndexOf newline file cursor).map (· + 1) := by
  induction steps generalizing cursor with
  | zero =>
    obtain rfl : cursor = 0 := by omega
    rfl
  | succ steps ih =>
    rw [completeEnd]
    split
    · rename_i hpos
      obtain ⟨start, hstart⟩ : ∃ start, start = cursor - block_size := ⟨_, rfl⟩
      have hchunk : (slice file start cursor).length = cursor - start := length_slice_of_le hcursor
      have hsearch := @lastIndexOf_slice _ _ newline file start cursor (cursor - start)
        (show start + (cursor - start) ≤ cursor by omega)
      rw [Nat.add_sub_cancel' (by omega : start ≤ cursor)] at hsearch
      simp only [← hstart, hchunk]
      rw [hsearch]
      cases lastIndexOf newline (slice file start cursor) (cursor - start) with
      | some n => rfl
      | none => exact ih start (by omega) (by omega)
    · obtain rfl : cursor = 0 := by omega
      rfl

theorem completeEnd_some {e : Nat} (hblock : 0 < block_size)
    (h : completeEnd block_size file file.length file.length = some e) :
    0 < e ∧ e ≤ file.length ∧ Closed newline (file.take e) ∧
      unfinished newline file = slice file e file.length ∧
      lines newline 0 file = lines newline 0 (file.take e) := by
  rw [completeEnd_eq hblock _ _ le_rfl le_rfl] at h
  obtain ⟨n, hn, rfl⟩ := Option.map_eq_some_iff.mp h
  obtain ⟨hlt, hnewline, hrest⟩ := lastIndexOf_some hn
  have hclosed : Closed newline (file.take (n + 1)) := by
    rw [take_closed_line (Nat.zero_le n) hnewline, List.take_zero, List.nil_append]
    exact closed_concat _
  have hsplit : file = file.take (n + 1) ++ slice file (n + 1) file.length := by
    rw [← slice_zero, slice_append (Nat.zero_le _) (by omega), slice_whole le_rfl]
  refine ⟨by omega, by omega, hclosed, ?_, ?_⟩
  · conv_lhs => rw [hsplit]
    rw [unfinished_append_of_not_mem hrest, hclosed, List.nil_append]
  · conv_lhs => rw [hsplit]
    rw [lines_append_closed hclosed, lines_of_not_mem hrest, List.append_nil]

theorem completeEnd_none (hblock : 0 < block_size)
    (h : completeEnd block_size file file.length file.length = none) :
    unfinished newline file = file ∧ lines newline 0 file = [] := by
  rw [completeEnd_eq hblock _ _ le_rfl le_rfl, Option.map_eq_none_iff] at h
  have hnone := lastIndexOf_none h
  rw [slice_whole le_rfl] at hnone
  exact ⟨unfinished_of_not_mem hnone, lines_of_not_mem hnone 0⟩

/-! ## The scan -/

/-- What the scan has found in front of `q`, where the line begins behind the one it is in. -/
structure Scanned (fields : List UInt8 → Fields) (block_size : Nat) (file : List UInt8)
    (complete_end target : Nat) (s : Scan) (q : Nat) : Prop where
  cursor_le : s.cursor ≤ q
  le_end : q ≤ complete_end
  aligned : 0 < s.cursor → (complete_end - s.cursor) % block_size = 0
  closed : Closed newline (file.take q)
  /-- The scan is within one line. -/
  within : newline ∉ slice file s.cursor (q - 1)
  carried : s.discarding_oversized_line = false →
    s.carry = slice file s.cursor q ∧ q - s.cursor ≤ kMaxLogLineBytes ∧ (s.cursor = 0 → q = 0)
  discarded : s.discarding_oversized_line = true →
    s.carry = [] ∧ kMaxLogLineBytes < q - s.cursor ∧ (s.cursor = 0 → kMaxLogLineBytes + 1 < q)
  found : s.newest_first =
    ((lines newline q (slice file q complete_end)).filterMap
      (keepScanned fields block_size complete_end)).reverse.take target

theorem mem_lines_slice {p q : Nat} (hq : q ≤ file.length) {line : Nat × List UInt8}
    (h : line ∈ lines newline p (slice file p q)) :
    p ≤ line.1 ∧ line.1 + line.2.length < q ∧ (line.1 = p ∨ file[line.1 - 1]? = some newline) ∧
      file[line.1 + line.2.length]? = some newline := by
  have hbounds := mem_lines h
  obtain ⟨hstart, i, hi, hend⟩ := lines_ends h
  have hlen : (slice file p q).length = q - p := length_slice_of_le hq
  have hpq : p < q := by
    have := (List.getElem?_eq_some_iff.mp hi).1
    omega
  rw [getElem?_slice (by omega), hend] at hi
  refine ⟨hbounds.1, by omega, hstart.imp id ?_, hi⟩
  rintro ⟨j, hj, hbegin⟩
  have := (List.getElem?_eq_some_iff.mp hj).1
  rw [getElem?_slice (by omega)] at hj
  rwa [← hbegin, Nat.add_sub_cancel]

/-- A block with what it adds to: `data` stands before the line at `q`. -/
structure Ready (fields : List UInt8 → Fields) (block_size : Nat) (file : List UInt8)
    (complete_end target start : Nat) (newest_first : List LogLine) (q : Nat) : Prop where
  start_lt : start < q
  le_end : q ≤ complete_end
  aligned : 0 < start → (complete_end - start) % block_size = 0
  closed : Closed newline (file.take q)
  /-- No line that the block completes is at a boundary, but for one that its first bytes begin. -/
  inner : ∀ p line, start ≤ p → (p = start → start = 0) → (p = 0 ∨ file[p - 1]? = some newline) →
    line ∈ lines newline p (slice file p q) → ¬AtBoundary block_size complete_end line
  found : newest_first =
    ((lines newline q (slice file q complete_end)).filterMap
      (keepScanned fields block_size complete_end)).reverse.take target

theorem not_atBoundary {complete_end cursor q : Nat} (hle : cursor ≤ complete_end)
    (haligned : (complete_end - cursor) % block_size = 0) (hq : q ≤ file.length)
    (hlater : ∀ line : Nat × List UInt8, cursor ≤ line.1 → file[line.1 - 1]? = some newline →
      line.1 + line.2.length < q → line.2.length < kMaxLogLineBytes)
    {p : Nat} {line : Nat × List UInt8} (hp : cursor - block_size ≤ p)
    (hfirst : p = cursor - block_size → cursor - block_size = 0)
    (hbegin : p = 0 ∨ file[p - 1]? = some newline) (hmem : line ∈ lines newline p (slice file p q)) :
    ¬AtBoundary block_size complete_end line := by
  rintro ⟨hsize, hpos, hboundary⟩
  obtain ⟨hple, hend, hstart, -⟩ := mem_lines_slice hq hmem
  by_cases hbefore : line.1 < cursor
  · -- Between two boundaries.
    have hsplit : complete_end - line.1 = (complete_end - cursor) + (cursor - line.1) := by omega
    rw [hsplit, Nat.add_mod, haligned, Nat.zero_add, Nat.mod_mod,
      Nat.mod_eq_of_lt (by omega)] at hboundary
    omega
  · have hnewline : file[line.1 - 1]? = some newline := by
      rcases hstart with hstart | hstart
      · rw [hstart]
        exact hbegin.resolve_left (by omega)
      · exact hstart
    have := hlater line (by omega) hnewline hend
    omega

namespace Scanned

variable {complete_end target : Nat} {s : Scan} {q : Nat}

theorem ready_of_carried (h : Scanned fields block_size file complete_end target s q)
    (hblock : 0 < block_size) (hend : complete_end ≤ file.length) (hcursor : 0 < s.cursor)
    (hcarry : s.discarding_oversized_line = false) :
    blockData s (slice file (s.cursor - block_size) s.cursor) =
        some (slice file (s.cursor - block_size) q) ∧
      Ready fields block_size file complete_end target (s.cursor - block_size) s.newest_first q := by
  obtain ⟨hcarried, hsmall, -⟩ := h.carried hcarry
  have hcursorq := h.cursor_le
  have hqend := h.le_end
  have haligned := h.aligned hcursor
  refine ⟨?_, by omega, hqend, fun hstart => ?_, h.closed, fun p line hp hfirst hbegin hmem => ?_, h.found⟩
  · rw [blockData, hcarry, if_neg (by simp), hcarried, slice_append (by omega) hcursorq]
  · have hsplit : complete_end - (s.cursor - block_size) = (complete_end - s.cursor) + block_size := by omega
    rw [hsplit, Nat.add_mod_right, haligned]
  · refine not_atBoundary (by omega) haligned (by omega) ?_ hp hfirst hbegin hmem
    intro line hline hnewline hlen
    by_cases hsame : line.1 = s.cursor
    · omega
    · -- A newline within the line that the scan is in.
      exfalso
      apply h.within
      rw [List.mem_iff_getElem?]
      refine ⟨line.1 - 1 - s.cursor, ?_⟩
      rw [getElem?_slice (by omega), show s.cursor + (line.1 - 1 - s.cursor) = line.1 - 1 by omega, hnewline]

theorem last_newline (h : Scanned fields block_size file complete_end target s q) (hq : 0 < q)
    (hend : q ≤ file.length) : file[q - 1]? = some newline := by
  have hne : file.take q ≠ [] := by
    rw [ne_eq, ← List.length_eq_zero_iff, List.length_take]
    omega
  have hlast := h.closed.split hne
  rwa [List.length_take, Nat.min_eq_left hend, List.getElem?_take_of_lt (by omega)] at hlast

theorem skip (h : Scanned fields block_size file complete_end target s q) (hend : complete_end ≤ file.length)
    {r : Nat} (hr : r < q) (hline : newline ∉ slice file r (q - 1))
    (hsize : kMaxLogLineBytes < q - 1 - r ∨
      (q - 1 - r = kMaxLogLineBytes ∧ 0 < r ∧ (complete_end - r) % block_size = 0)) :
    s.newest_first =
      ((lines newline r (slice file r complete_end)).filterMap
        (keepScanned fields block_size complete_end)).reverse.take target := by
  have hqend := h.le_end
  have hlast := h.last_newline (by omega) (by omega)
  have hlen : (slice file r (q - 1)).length = q - 1 - r := length_slice_of_le (by omega)
  have hnewline : slice file (q - 1) q = [newline] := by
    have htake := take_closed_line (Nat.le_refl (q - 1)) hlast
    rw [Nat.sub_add_cancel (by omega), slice_self, List.nil_append] at htake
    rw [slice, htake, List.drop_left' (by rw [List.length_take, Nat.min_eq_left (by omega)])]
  have hsplit : slice file r complete_end =
      slice file r (q - 1) ++ newline :: slice file q complete_end := by
    rw [← slice_append (by omega : r ≤ q - 1) (by omega : q - 1 ≤ complete_end),
      ← slice_append (by omega : q - 1 ≤ q) hqend, hnewline, List.singleton_append]
  have hdropped : keepScanned fields block_size complete_end (r, slice file r (q - 1)) = none := by
    rw [keepScanned]
    rcases hsize with hlong | ⟨hexact, hpos, haligned⟩
    · split
      · rfl
      · rw [keep, hlen, if_neg (by omega)]
    · rw [if_pos ⟨hlen.trans hexact, hpos, haligned⟩]
  rw [hsplit, lines_line hline, List.filterMap_cons, hdropped, hlen,
    show r + (q - 1 - r) + 1 = q by omega]
  exact h.found

/-- The discarded line goes on over a block without a newline, and ends the discarding at one. -/
theorem of_discarded (h : Scanned fields block_size file complete_end target s q)
    (hblock : 0 < block_size) (hend : complete_end ≤ file.length) (hcursor : 0 < s.cursor)
    (hdiscard : s.discarding_oversized_line = true) :
    (blockData s (slice file (s.cursor - block_size) s.cursor) = none ∧
        Scanned fields block_size file complete_end target { s with cursor := s.cursor - block_size } q) ∨
      ∃ r, blockData s (slice file (s.cursor - block_size) s.cursor) =
          some (slice file (s.cursor - block_size) r) ∧
        Ready fields block_size file complete_end target (s.cursor - block_size) s.newest_first r := by
  obtain ⟨hcarry, hlarge, -⟩ := h.discarded hdiscard
  have hcursorq := h.cursor_le
  have hqend := h.le_end
  have haligned := h.aligned hcursor
  have hstartaligned : 0 < s.cursor - block_size →
      (complete_end - (s.cursor - block_size)) % block_size = 0 := by
    intro hstart
    have hsplit : complete_end - (s.cursor - block_size) = (complete_end - s.cursor) + block_size := by omega
    rw [hsplit, Nat.add_mod_right, haligned]
  have hlen : (slice file (s.cursor - block_size) s.cursor).length = s.cursor - (s.cursor - block_size) :=
    length_slice_of_le (by omega)
  cases hfound : lastIndexOf newline (slice file (s.cursor - block_size) s.cursor)
      (slice file (s.cursor - block_size) s.cursor).length with
  | none =>
    have hnone := lastIndexOf_none hfound
    rw [slice_whole le_rfl] at hnone
    refine .inl ⟨by rw [blockData, if_pos hdiscard, hfound]; rfl,
      by simp only; omega, hqend, hstartaligned, h.closed, ?_, fun hno => ?_, fun _ => ?_, h.found⟩
    · rw [← slice_append (by omega : s.cursor - block_size ≤ s.cursor) (by omega : s.cursor ≤ q - 1),
        List.mem_append, not_or]
      exact ⟨hnone, h.within⟩
    · simp only [hdiscard] at hno
      cases hno
    · simp only
      exact ⟨hcarry, by omega, by omega⟩
  | some n =>
    obtain ⟨hn, hnewline, hbehind⟩ := lastIndexOf_some hfound
    rw [hlen] at hn
    rw [getElem?_slice (by omega)] at hnewline
    have hline : newline ∉ slice file (s.cursor - block_size + n + 1) (q - 1) := by
      rw [← slice_append (by omega : s.cursor - block_size + n + 1 ≤ s.cursor) (by omega : s.cursor ≤ q - 1),
        List.mem_append, not_or]
      refine ⟨?_, h.within⟩
      have hdrop : slice (slice file (s.cursor - block_size) s.cursor) (n + 1)
          (slice file (s.cursor - block_size) s.cursor).length =
          slice file (s.cursor - block_size + n + 1) s.cursor := by
        rw [slice, List.take_length, drop_slice]
        rfl
      rwa [hdrop] at hbehind
    refine .inr ⟨s.cursor - block_size + n + 1, ?_, by omega, by omega, hstartaligned, ?_, ?_, ?_⟩
    · rw [blockData, if_pos hdiscard, hfound, Option.map_some, take_slice (by omega)]
      rfl
    · rw [take_closed_line (Nat.zero_le _) hnewline, List.take_zero, List.nil_append]
      exact closed_concat _
    · intro p line hp hfirst hbegin hmem
      exact not_atBoundary (by omega) haligned (by omega) (fun line hline _ hlt => by omega) hp hfirst hbegin hmem
    · refine h.skip hend (by omega) hline ?_
      by_cases hexact : q - 1 - (s.cursor - block_size + n + 1) = kMaxLogLineBytes
      · right
        have hsame : s.cursor - block_size + n + 1 = s.cursor := by omega
        exact ⟨hexact, by omega, by rw [hsame]; exact haligned⟩
      · left
        omega

end Scanned

/-! ## One block -/

theorem take_append_found {α : Type*} (new old : List α) (target : Nat) :
    old.reverse.take target ++ new.reverse.take (target - (old.reverse.take target).length) =
      (new ++ old).reverse.take target := by
  rw [List.reverse_append, List.take_append, List.length_take]
  congr 2
  omega

namespace Ready

variable {complete_end target start : Nat} {newest_first : List LogLine} {q : Nat}

theorem parse (h : Ready fields block_size file complete_end target start newest_first q)
    (hend : complete_end ≤ file.length) {p : Nat} (hp : start ≤ p) (hpq : p ≤ q)
    (hfirst : p = start → start = 0) (hbegin : p = 0 ∨ file[p - 1]? = some newline) (s : Scan)
    (hs : s.newest_first = newest_first) :
    parseSegment fields target s (slice file p q) p =
      ((lines newline p (slice file p complete_end)).filterMap
        (keepScanned fields block_size complete_end)).reverse.take target := by
  have hqend := h.le_end
  have hclosed : Closed newline (slice file p q) := by
    by_cases hsame : p = q
    · rw [hsame, slice_self]
      exact closed_nil
    · have hne : file.take q ≠ [] := by
        rw [ne_eq, ← List.length_eq_zero_iff, List.length_take]
        omega
      have hlast := h.closed.split hne
      rw [List.length_take, Nat.min_eq_left (by omega), List.getElem?_take_of_lt (by omega)] at hlast
      refine closed_of_getLast ?_
      rw [length_slice_of_le (by omega), getElem?_slice (by omega), ← hlast]
      congr 1
      omega
  have hlen : (slice file p q).length = q - p := length_slice_of_le (by omega)
  have hkeep : (lines newline p (slice file p q)).filterMap (keep fields) =
      (lines newline p (slice file p q)).filterMap (keepScanned fields block_size complete_end) := by
    refine List.filterMap_congr fun line hline => ?_
    rw [keepScanned, if_neg (h.inner p line hp hfirst hbegin hline)]
  rw [parseSegment, parseCompleteLines_eq fields hclosed, hs, h.found, hkeep, take_append_found,
    ← List.filterMap_append, ← slice_append hpq hqend, lines_append_closed hclosed, hlen,
    Nat.add_sub_cancel' hpq]

end Ready

theorem scanBlock_ready {complete_end target : Nat} {s : Scan} {r : Nat}
    (hend : complete_end ≤ file.length)
    (hdata : blockData s (slice file (s.cursor - block_size) s.cursor) =
      some (slice file (s.cursor - block_size) r))
    (h : Ready fields block_size file complete_end target (s.cursor - block_size) s.newest_first r) :
    ∃ q, Scanned fields block_size file complete_end target
      (scanBlock fields block_size file target s) q := by
  have hrend := h.le_end
  have hstartr := h.start_lt
  by_cases hstart : s.cursor - block_size = 0
  · -- The first block of the file: its first line is complete.
    refine ⟨0, ?_⟩
    have hparse := h.parse hend (Nat.le_of_eq hstart) (Nat.zero_le r) (fun _ => hstart) (.inl rfl) s rfl
    rw [hstart] at hdata
    simp only [scanBlock, hstart, hdata, if_true]
    exact ⟨le_rfl, Nat.zero_le _, fun hpos => absurd hpos (Nat.lt_irrefl 0), closed_nil, by simp [slice],
      fun _ => ⟨by simp [slice], Nat.zero_le _, fun _ => rfl⟩, fun hlarge => absurd hlarge Bool.false_ne_true,
      hparse⟩
  · have hne : slice file (s.cursor - block_size) r ≠ [] := by
      rw [ne_eq, ← List.length_eq_zero_iff, length_slice_of_le (by omega)]
      omega
    have hmem : newline ∈ slice file (s.cursor - block_size) r := by
      have hneq : file.take r ≠ [] := by
        rw [ne_eq, ← List.length_eq_zero_iff, List.length_take]
        omega
      have hlast := h.closed.split hneq
      rw [List.length_take, Nat.min_eq_left (by omega), List.getElem?_take_of_lt (by omega)] at hlast
      rw [List.mem_iff_getElem?]
      refine ⟨r - 1 - (s.cursor - block_size), ?_⟩
      rw [getElem?_slice (by omega), ← hlast]
      congr 1
      omega
    obtain ⟨first, rest, hsplit, hfirst⟩ := List.eq_append_cons_of_mem hmem
    have hindex : (slice file (s.cursor - block_size) r).idxOf? newline = some first.length := by
      rw [hsplit, idxOf?_line hfirst]
    have hlength := congrArg List.length hsplit
    rw [length_slice_of_le (by omega), List.length_append, List.length_cons] at hlength
    have hnewline : file[s.cursor - block_size + first.length]? = some newline := by
      rw [← getElem?_slice (by omega : s.cursor - block_size + first.length < r), hsplit]
      simp
    have hcarry : (slice file (s.cursor - block_size) r).take (first.length + 1) =
        slice file (s.cursor - block_size) (s.cursor - block_size + first.length + 1) :=
      take_slice (by omega)
    have hcarrylen : (slice file (s.cursor - block_size)
        (s.cursor - block_size + first.length + 1)).length = first.length + 1 := by
      rw [length_slice_of_le (by omega)]
      omega
    have hwithin : newline ∉ slice file (s.cursor - block_size) (s.cursor - block_size + first.length) := by
      have htake : (slice file (s.cursor - block_size) r).take first.length = first := by
        rw [hsplit, List.take_left]
      rw [take_slice (by omega)] at htake
      rwa [htake]
    have hclosed : Closed newline (file.take (s.cursor - block_size + first.length + 1)) := by
      rw [take_closed_line (Nat.zero_le _) hnewline, List.take_zero, List.nil_append]
      exact closed_concat _
    have hparse := h.parse hend (by omega : s.cursor - block_size ≤ s.cursor - block_size + first.length + 1)
      (by omega) (by omega) (.inr (by rwa [Nat.add_sub_cancel])) s rfl
    refine ⟨s.cursor - block_size + first.length + 1, ?_⟩
    simp only [scanBlock, hdata, hstart, if_false, hindex, hcarry, hcarrylen, drop_slice]
    refine ⟨by simp only; omega, by omega, fun _ => h.aligned (by omega), hclosed, hwithin,
      fun hsmall => ?_, fun hlarge => ?_, hparse⟩
    · simp only [decide_eq_false_iff_not] at hsmall
      simp only [hsmall, decide_false, Bool.false_eq_true, if_false, true_and]
      omega
    · simp only [decide_eq_true_eq] at hlarge
      simp only [hlarge, decide_true, if_true, true_and]
      omega

theorem scanBlock_scanned {complete_end target : Nat} {s : Scan} {q : Nat} (hblock : 0 < block_size)
    (hend : complete_end ≤ file.length) (hcursor : 0 < s.cursor)
    (h : Scanned fields block_size file complete_end target s q) :
    ∃ q', Scanned fields block_size file complete_end target (scanBlock fields block_size file target s) q' := by
  cases hdiscard : s.discarding_oversized_line with
  | false =>
    obtain ⟨hdata, hready⟩ := h.ready_of_carried hblock hend hcursor hdiscard
    exact scanBlock_ready hend hdata hready
  | true =>
    rcases h.of_discarded hblock hend hcursor hdiscard with ⟨hdata, hnext⟩ | ⟨r, hdata, hready⟩
    · refine ⟨q, ?_⟩
      simp only [scanBlock, hdata]
      exact hnext
    · exact scanBlock_ready hend hdata hready

theorem scanBlock_cursor (target : Nat) (s : Scan) :
    (scanBlock fields block_size file target s).cursor = s.cursor - block_size := by
  simp only [scanBlock]
  split
  · rfl
  · split
    · rfl
    · split
      · split <;> rfl
      · rfl

/-! ## The whole scan -/

theorem scanTail_scanned {complete_end target : Nat} (hblock : 0 < block_size)
    (hend : complete_end ≤ file.length) (steps : Nat) (s : Scan) (q : Nat) (hsteps : s.cursor ≤ steps)
    (h : Scanned fields block_size file complete_end target s q) :
    ∃ q', Scanned fields block_size file complete_end target
        (scanTail fields block_size file target steps s) q' ∧
      ((scanTail fields block_size file target steps s).cursor = 0 ∨
        target ≤ (scanTail fields block_size file target steps s).newest_first.length) := by
  induction steps generalizing s q with
  | zero => exact ⟨q, h, .inl (Nat.le_zero.mp hsteps)⟩
  | succ steps ih =>
    rw [scanTail]
    split
    · rename_i hgo
      obtain ⟨q', hnext⟩ := scanBlock_scanned hblock hend hgo.1 h
      exact ih _ q' (by rw [scanBlock_cursor]; omega) hnext
    · exact ⟨q, h, by omega⟩

/-- What is found in the end is what survives in front of the complete end. -/
theorem Scanned.found_all {complete_end target : Nat} {s : Scan} {q : Nat}
    (h : Scanned fields block_size file complete_end target s q) (hend : complete_end ≤ file.length)
    (hdone : s.cursor = 0 ∨ target ≤ s.newest_first.length) :
    s.newest_first =
      ((lines newline 0 (file.take complete_end)).filterMap
        (keepScanned fields block_size complete_end)).reverse.take target := by
  have hqend := h.le_end
  by_cases hzero : s.cursor = 0
  · cases hdiscard : s.discarding_oversized_line with
    | false =>
      have hq : q = 0 := (h.carried hdiscard).2.2 hzero
      subst hq
      exact h.found
    | true =>
      have hlarge := (h.discarded hdiscard).2.2 hzero
      have hwithin := h.within
      rw [hzero] at hwithin
      exact h.skip hend (by omega) hwithin (.inl (by omega))
  · have hfull : target ≤ s.newest_first.length := hdone.resolve_left hzero
    have hsplit : file.take complete_end = file.take q ++ slice file q complete_end := by
      rw [← slice_zero, ← slice_zero, slice_append (Nat.zero_le _) hqend]
    have hlen : (file.take q).length = q := by
      rw [List.length_take]
      omega
    have hfound := h.found
    rw [hfound, List.length_take, List.length_reverse] at hfull
    rw [hfound, hsplit, lines_append_closed h.closed, hlen, Nat.zero_add, List.filterMap_append,
      List.reverse_append, List.take_append_of_le_length (by rw [List.length_reverse]; omega)]

theorem scanned_start {complete_end : Nat} (target : Nat) (hclosed : Closed newline (file.take complete_end)) :
    Scanned fields block_size file complete_end target { cursor := complete_end } complete_end where
  cursor_le := le_rfl
  le_end := le_rfl
  aligned _ := by simp
  closed := hclosed
  within := by simp [slice_of_ge (Nat.sub_le complete_end 1)]
  carried _ := ⟨by simp [slice_self], by simp, id⟩
  discarded := by nofun
  found := by simp [slice_self, lines, scan]

/-! ## The result -/

/-- Where the complete lines of the file end. -/
def completeSize (file : List UInt8) : Nat := file.length - (unfinished newline file).length

/-- The entries that the backward scan can find, oldest first. -/
def scanSurvivors (fields : List UInt8 → Fields) (file : List UInt8) : List LogLine :=
  (lines newline 0 file).filterMap (keepScanned fields TAIL_READ_BLOCK_SIZE (completeSize file))

theorem readTail_eq {load_limit : Nat} (hlimit : load_limit ≤ kMaxLoadLimit) :
    readTail fields file load_limit =
      { forwardTail fields file load_limit with
        lines := (scanSurvivors fields file).reverse.take load_limit
        has_more_lines := load_limit < (scanSurvivors fields file).length } := by
  have hblock := tail_read_block_size_pos
  cases hend : completeEnd TAIL_READ_BLOCK_SIZE file file.length file.length with
  | none =>
    obtain ⟨hunfinished, hlines⟩ := completeEnd_none hblock hend
    simp only [readTail, hend, forwardTail, scanSurvivors, hlines, hunfinished, Option.getD_none,
      Nat.sub_zero, slice_whole le_rfl]
    by_cases hlong : kMaxLogLineBytes < file.length
    · simp [hlong, not_le.mpr hlong]
    · simp [hlong, not_lt.mp hlong]
  | some e =>
    obtain ⟨hpos, hle, hclosed, hunfinished, hlines⟩ := completeEnd_some hblock hend
    have hsize : (unfinished newline file).length = file.length - e := by
      rw [hunfinished, length_slice_of_le le_rfl]
    have hcomplete : completeSize file = e := by
      rw [completeSize, hsize]
      omega
    obtain ⟨q, hscanned, hdone⟩ := scanTail_scanned hblock hle e { cursor := e } e le_rfl
      (@scanned_start fields TAIL_READ_BLOCK_SIZE file e (load_limit + 1) hclosed)
    have hfound := hscanned.found_all hle hdone
    have hsurvivors : (lines newline 0 file).filterMap (keepScanned fields TAIL_READ_BLOCK_SIZE e) =
        scanSurvivors fields file := by
      rw [scanSurvivors, hcomplete]
    rw [← hlines, hsurvivors] at hfound
    simp only [readTail, hend, forwardTail, Option.getD_some, Nat.min_eq_left hlimit, hunfinished,
      length_slice_of_le le_rfl, hfound, List.length_take, List.length_reverse]
    have hmore : load_limit < min (load_limit + 1) (scanSurvivors fields file).length ↔
        load_limit < (scanSurvivors fields file).length := by omega
    have hlast : (if load_limit < (scanSurvivors fields file).length then
        ((scanSurvivors fields file).reverse.take (load_limit + 1)).dropLast
        else (scanSurvivors fields file).reverse.take (load_limit + 1)) =
        (scanSurvivors fields file).reverse.take load_limit := by
      split
      · rw [List.dropLast_eq_take, List.length_take, List.length_reverse, List.take_take]
        congr 1
        omega
      · rw [List.take_of_length_le (by rw [List.length_reverse]; omega),
          List.take_of_length_le (by rw [List.length_reverse]; omega)]
    simp only [hmore, hlast]
    by_cases hlong : kMaxLogLineBytes < file.length - e
    · simp [hlong, not_le.mpr hlong]
    · simp [hlong, not_lt.mp hlong]

/-! ## When the scan is the forward pass -/

/-- The lines that survive a forward pass, newest first. -/
def survivingLines (fields : List UInt8 → Fields) (file : List UInt8) : List (Nat × List UInt8) :=
  ((lines newline 0 file).filter fun line => (keep fields line).isSome).reverse

/-- None of the last survivors is at a boundary, and where there are more, neither are all of those. -/
def NoneAtBoundary (fields : List UInt8 → Fields) (file : List UInt8) (load_limit : Nat) : Prop :=
  (∀ line ∈ (survivingLines fields file).take load_limit,
      ¬AtBoundary TAIL_READ_BLOCK_SIZE (completeSize file) line) ∧
    (load_limit < (survivingLines fields file).length →
      ∃ line ∈ (survivingLines fields file).drop load_limit,
        ¬AtBoundary TAIL_READ_BLOCK_SIZE (completeSize file) line)

instance (load_limit : Nat) : Decidable (NoneAtBoundary fields file load_limit) :=
  inferInstanceAs (Decidable (_ ∧ (_ → _)))

/-- The entry of a line that is kept. -/
def entry (fields : List UInt8 → Fields) (line : Nat × List UInt8) : LogLine :=
  { fields (chopReturn line.2) with source_offset := line.1 }

theorem keep_eq_some {line : Nat × List UInt8} {x : LogLine} (h : keep fields line = some x) :
    x = entry fields line := by
  simp only [keep, logLine] at h
  split at h
  · split at h
    · exact (Option.some.inj h).symm
    · cases h
  · cases h

theorem filterMap_keep {kept : List (Nat × List UInt8)} (h : ∀ line ∈ kept, (keep fields line).isSome) :
    kept.filterMap (keep fields) = kept.map (entry fields) := by
  rw [← List.filterMap_eq_map]
  refine List.filterMap_congr fun line hline => ?_
  obtain ⟨x, hx⟩ := Option.isSome_iff_exists.mp (h line hline)
  rw [hx, keep_eq_some hx]
  rfl

theorem filterMap_filter_isSome {α β : Type*} (f : α → Option β) (xs : List α) :
    (xs.filter fun x => (f x).isSome).filterMap f = xs.filterMap f := by
  rw [List.filterMap_filter]
  refine List.filterMap_congr fun x _ => ?_
  cases hx : f x <;> simp

theorem survivingLines_isSome : ∀ line ∈ survivingLines fields file, (keep fields line).isSome := by
  intro line hline
  exact (List.mem_filter.mp (List.mem_reverse.mp hline)).2

theorem survivors_reverse : (survivors fields file).reverse = (survivingLines fields file).map (entry fields) := by
  rw [← filterMap_keep survivingLines_isSome, survivingLines, List.filterMap_reverse,
    filterMap_filter_isSome]
  rfl

theorem scanSurvivors_reverse :
    (scanSurvivors fields file).reverse =
      ((survivingLines fields file).filter fun line =>
        !decide (AtBoundary TAIL_READ_BLOCK_SIZE (completeSize file) line)).map (entry fields) := by
  rw [← filterMap_keep fun line hline => survivingLines_isSome line (List.mem_of_mem_filter hline),
    survivingLines, List.filter_reverse, List.filterMap_reverse, List.filterMap_filter,
    List.filterMap_filter, scanSurvivors]
  congr 1
  refine List.filterMap_congr fun line _ => ?_
  by_cases hboundary : AtBoundary TAIL_READ_BLOCK_SIZE (completeSize file) line
  · simp [keepScanned, hboundary]
  · cases hkeep : keep fields line <;> simp [keepScanned, hboundary, hkeep]

theorem entry_inj {a b : Nat × List UInt8} (ha : a ∈ survivingLines fields file)
    (hb : b ∈ survivingLines fields file) (h : entry fields a = entry fields b) : a = b :=
  lines_inj (List.mem_of_mem_filter (List.mem_reverse.mp ha)) (List.mem_of_mem_filter (List.mem_reverse.mp hb))
    (congrArg LogLine.source_offset h)

theorem filter_of_take {α : Type*} {p : α → Bool} {xs : List α} {n : Nat} (h : ∀ x ∈ xs.take n, p x = true) :
    xs.filter p = xs.take n ++ (xs.drop n).filter p := by
  calc
    xs.filter p = (xs.take n ++ xs.drop n).filter p := by rw [List.take_append_drop]
    _ = xs.take n ++ (xs.drop n).filter p := by rw [List.filter_append, List.filter_eq_self.mpr h]

theorem take_filter_of_take {α : Type*} {p : α → Bool} {xs : List α} {n : Nat}
    (h : ∀ x ∈ xs.take n, p x = true) : (xs.filter p).take n = xs.take n := by
  rw [filter_of_take h]
  rcases le_or_gt n xs.length with hle | hgt
  · exact List.take_left' (List.length_take_of_le hle)
  · rw [List.drop_eq_nil_of_le hgt.le, List.filter_nil, List.append_nil, List.take_take, Nat.min_self]

theorem lt_length_filter_iff {α : Type*} {p : α → Bool} {xs : List α} {n : Nat}
    (h : ∀ x ∈ xs.take n, p x = true) : n < (xs.filter p).length ↔ ∃ x ∈ xs.drop n, p x = true := by
  rw [← List.length_filter_pos_iff, filter_of_take h, List.length_append, List.length_take]
  rcases le_or_gt n xs.length with hle | hgt
  · omega
  · rw [List.drop_eq_nil_of_le hgt.le]
    simp only [List.filter_nil, List.length_nil]
    omega

theorem not_atBoundary_of_take {load_limit : Nat}
    (h : (scanSurvivors fields file).reverse.take load_limit = (survivors fields file).reverse.take load_limit) :
    ∀ line ∈ (survivingLines fields file).take load_limit,
      ¬AtBoundary TAIL_READ_BLOCK_SIZE (completeSize file) line := by
  intro line hline
  have hmem : entry fields line ∈ (survivors fields file).reverse.take load_limit := by
    rw [survivors_reverse, ← List.map_take]
    exact List.mem_map_of_mem hline
  rw [← h, scanSurvivors_reverse, ← List.map_take] at hmem
  obtain ⟨found, hfound, hsame⟩ := List.mem_map.mp hmem
  obtain ⟨hsurvives, hnone⟩ := List.mem_filter.mp (List.mem_of_mem_take hfound)
  have heq := entry_inj hsurvives (List.mem_of_mem_take hline) hsame
  rw [← heq]
  simpa using hnone

/-- `ReadTail` returns what a forward pass returns exactly where none of the lines it needs is at a
boundary. -/
theorem readTail_eq_forwardTail_iff (fields : List UInt8 → Fields) (file : List UInt8) (load_limit : Nat)
    (hlimit : load_limit ≤ kMaxLoadLimit) :
    readTail fields file load_limit = forwardTail fields file load_limit ↔
      NoneAtBoundary fields file load_limit := by
  have hcount : (survivors fields file).length = (survivingLines fields file).length := by
    rw [← List.length_reverse, survivors_reverse, List.length_map]
  have hscan := congrArg List.length (@scanSurvivors_reverse fields file)
  rw [List.length_reverse, List.length_map] at hscan
  have hpasses (h : ∀ line ∈ (survivingLines fields file).take load_limit,
      ¬AtBoundary TAIL_READ_BLOCK_SIZE (completeSize file) line) :
      ∀ line ∈ (survivingLines fields file).take load_limit,
        (!decide (AtBoundary TAIL_READ_BLOCK_SIZE (completeSize file) line)) = true :=
    fun line hline => by simpa using h line hline
  rw [readTail_eq hlimit]
  constructor
  · intro h
    have hlines := congrArg ReadResult.lines h
    have hmore := congrArg ReadResult.has_more_lines h
    simp only [forwardTail, decide_eq_decide] at hlines hmore
    have hnone := not_atBoundary_of_take hlines
    rw [hscan, hcount, lt_length_filter_iff (hpasses hnone)] at hmore
    exact ⟨hnone, fun hlong => by simpa using hmore.mpr hlong⟩
  · rintro ⟨hnone, hrest⟩
    have hlines : (scanSurvivors fields file).reverse.take load_limit =
        (survivors fields file).reverse.take load_limit := by
      rw [scanSurvivors_reverse, survivors_reverse, ← List.map_take, ← List.map_take,
        take_filter_of_take (hpasses hnone)]
    have hmore : load_limit < (scanSurvivors fields file).length ↔
        load_limit < (survivors fields file).length := by
      rw [hcount, hscan]
      constructor
      · exact fun hscanned => lt_of_lt_of_le hscanned (List.length_filter_le ..)
      · exact fun hlong => (lt_length_filter_iff (hpasses hnone)).mpr (by simpa using hrest hlong)
    simp only [hlines, hmore]
    rfl

/-- A message is the text itself, without a timestamp. -/
def plainFields (raw : List UInt8) : Fields :=
  ⟨"", String.ofList (raw.map fun byte => Char.ofNat byte.toNat), false, false⟩

/-- Three lines with an empty one between them, and the start of a fourth. -/
def shortFile : List UInt8 := [97, newline, newline, 98, newline, 99, newline, 100]

theorem readTail_eq_forwardTail_lines :
    readTail plainFields shortFile 2 = forwardTail plainFields shortFile 2 ∧
      (forwardTail plainFields shortFile 2).lines.length = 2 ∧
      (forwardTail plainFields shortFile 2).has_more_lines = true :=
  ⟨(readTail_eq_forwardTail_iff plainFields shortFile 2 (by decide)).mpr (by decide), by decide, by decide⟩

/-- A line of exactly 1 MiB, and behind it one of `rest` bytes. -/
def boundaryFile (rest : Nat) : List UInt8 :=
  newline :: (List.replicate kMaxLogLineBytes 97 ++ newline :: (List.replicate rest 97 ++ [newline]))

theorem newline_not_mem_replicate (n : Nat) : newline ∉ List.replicate n (97 : UInt8) := by
  intro h
  exact absurd (List.eq_of_mem_replicate h) (by decide)

theorem lines_boundaryFile (rest : Nat) :
    lines newline 0 (boundaryFile rest) = [(0, []), (1, List.replicate kMaxLogLineBytes 97),
      (1 + kMaxLogLineBytes + 1, List.replicate rest 97)] := by
  have hfirst := lines_line (@List.not_mem_nil _ newline) 0
    (List.replicate kMaxLogLineBytes 97 ++ newline :: (List.replicate rest 97 ++ [newline]))
  rw [List.nil_append, lines_line (newline_not_mem_replicate _),
    lines_line (newline_not_mem_replicate _)] at hfirst
  rw [boundaryFile, hfirst, List.length_replicate]
  rfl

theorem completeSize_boundaryFile (rest : Nat) :
    completeSize (boundaryFile rest) = kMaxLogLineBytes + rest + 3 := by
  have hlast : boundaryFile rest = (newline :: (List.replicate kMaxLogLineBytes 97 ++
      newline :: List.replicate rest 97)) ++ [newline] := by
    rw [List.cons_append, List.append_assoc, List.cons_append]
    rfl
  have hclosed : unfinished newline (boundaryFile rest) = [] := by
    rw [hlast]
    exact closed_concat _
  rw [completeSize, hclosed, boundaryFile]
  simp only [List.length_cons, List.length_append, List.length_replicate, List.length_nil]
  omega

theorem keep_plain_replicate (offset : Nat) {n : Nat} (hpos : 0 < n) (hle : n ≤ kMaxLogLineBytes) :
    (keep plainFields (offset, List.replicate n 97)).isSome := by
  have hchop : chopReturn (List.replicate n (97 : UInt8)) = List.replicate n 97 := by
    simp [chopReturn, List.getLast?_replicate]
  have hmessage : (plainFields (List.replicate n 97)).message.isEmpty = false := by
    simp [plainFields]
    omega
  rw [keep, List.length_replicate, if_pos hle, hchop, logLine]
  simp [hmessage]

theorem survivingLines_boundaryFile {rest : Nat} (hpos : 0 < rest) (hle : rest ≤ kMaxLogLineBytes) :
    survivingLines plainFields (boundaryFile rest) =
      [(1 + kMaxLogLineBytes + 1, List.replicate rest 97), (1, List.replicate kMaxLogLineBytes 97)] := by
  have hlong := keep_plain_replicate 1 (by decide : 0 < kMaxLogLineBytes) le_rfl
  have hshort := keep_plain_replicate (1 + kMaxLogLineBytes + 1) hpos hle
  have hempty : (keep plainFields (0, [])).isSome = false := by decide
  rw [survivingLines, lines_boundaryFile, List.filter_cons, List.filter_cons, List.filter_cons]
  simp only [hempty, hlong, hshort, Bool.false_eq_true, if_false, if_true, List.filter_nil]
  rfl

/-- The scan drops the line of exactly 1 MiB where it begins whole blocks before the end. -/
theorem readTail_ne_of_aligned {rest : Nat} (hpos : 0 < rest) (hle : rest ≤ kMaxLogLineBytes)
    (haligned : (kMaxLogLineBytes + rest + 3 - 1) % TAIL_READ_BLOCK_SIZE = 0) :
    readTail plainFields (boundaryFile rest) 2 ≠ forwardTail plainFields (boundaryFile rest) 2 := by
  intro h
  have hlines := congrArg ReadResult.lines h
  rw [readTail_eq (by decide)] at hlines
  simp only [forwardTail] at hlines
  have hnone := not_atBoundary_of_take hlines
  rw [survivingLines_boundaryFile hpos hle, completeSize_boundaryFile] at hnone
  have hmem : ∀ newer older : Nat × List UInt8, older ∈ [newer, older].take 2 := by simp
  exact hnone _ (hmem _ _) ⟨List.length_replicate, Nat.one_pos, haligned⟩

theorem readTail_ne_forwardTail_boundary :
    readTail plainFields (boundaryFile 65534) 2 ≠ forwardTail plainFields (boundaryFile 65534) 2 :=
  readTail_ne_of_aligned (by decide) (by decide) (by decide)

end GuiQml.DebugLog.File
