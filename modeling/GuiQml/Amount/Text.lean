import GuiQml.Lib.Decimal
import GuiQml.Lib.Int64
import Mathlib.Data.List.TakeWhile

/-!
# Typed numbers

The `QString` functions that read a typed number. A text is its list of characters.
-/

namespace GuiQml.Amount

open Decimal

abbrev Str := List Char

/-- `QChar::isSpace`. -/
def isSpace (c : Char) : Bool :=
  let n := c.toNat
  (0x09 ≤ n && n ≤ 0x0D) || n == 0x20 || n == 0x85 || n == 0xA0 || n == 0x1680 ||
    (0x2000 ≤ n && n ≤ 0x200A) || n == 0x2028 || n == 0x2029 || n == 0x202F || n == 0x205F || n == 0x3000

def trimmed (s : Str) : Str := ((s.dropWhile isSpace).reverse.dropWhile isSpace).reverse

def startsWith (c : Char) (s : Str) : Bool := s.head? == some c

/-- `QString::split` at each point. -/
def splitPoints (s : Str) : List Str := s.splitOn '.'

def leftJustified (width : Nat) (fill : Char) (s : Str) : Str :=
  s ++ List.replicate (width - s.length) fill

def rightJustified (width : Nat) (fill : Char) (s : Str) : Str :=
  List.replicate (width - s.length) fill ++ s

/-- `QString::toLongLong` of a text without spaces and signs. No value where `ok` is false. -/
def toLongLong (s : Str) : Option Int :=
  if s ≠ [] ∧ Digits s ∧ (value s : Int) ≤ Int64.largest then some (value s) else none

/-! ## Digits and points -/

theorem toLongLong_eq {s : Str} (hne : s ≠ []) (h : Digits s) :
    toLongLong s = if (value s : Int) ≤ Int64.largest then some (value s : Int) else none := by
  simp only [toLongLong, hne, h, ne_eq, not_false_eq_true, true_and]

/-- Without a look at `ok`, a text that is too large reads as zero. -/
theorem toLongLong_getD {s : Str} (h : Digits s) :
    (toLongLong s).getD 0 = if (value s : Int) ≤ Int64.largest then (value s : Int) else 0 := by
  by_cases hne : s = []
  · subst hne
    rfl
  · rw [toLongLong_eq hne h]
    split <;> rfl

theorem Digits.not_point {s : Str} (h : Digits s) : '.' ∉ s := by
  intro hmem
  exact absurd (h '.' hmem) (by decide)

theorem isSpace_of_digit {c : Char} (h : c.isDigit = true) : isSpace c = false := by
  simp only [Char.isDigit, Bool.and_eq_true, decide_eq_true_eq] at h
  have hlow : 48 ≤ c.toNat := h.1
  have hhigh : c.toNat ≤ 57 := h.2
  simp [isSpace]
  omega

theorem dropWhile_isSpace {s : Str} (h : ∀ c ∈ s, isSpace c = false) : s.dropWhile isSpace = s := by
  cases s with
  | nil => rfl
  | cons c s => simp [h c (by simp)]

theorem trimmed_eq_self {s : Str} (h : ∀ c ∈ s, isSpace c = false) : trimmed s = s := by
  have hreverse : ∀ c ∈ s.reverse, isSpace c = false := fun c hc => h c (List.mem_reverse.mp hc)
  rw [trimmed, dropWhile_isSpace h, dropWhile_isSpace hreverse, List.reverse_reverse]

theorem trimmed_digits {s : Str} (h : Digits s) : trimmed s = s :=
  trimmed_eq_self fun c hc => isSpace_of_digit (h c hc)

theorem isSpace_of_trimmed {s : Str} (h : (trimmed s).isEmpty = true) : ∀ c ∈ s, isSpace c = true := by
  rw [trimmed, List.isEmpty_reverse, List.isEmpty_iff, List.dropWhile_eq_nil_iff] at h
  intro c hc
  rw [← List.takeWhile_append_dropWhile (p := isSpace) (l := s), List.mem_append] at hc
  rcases hc with hc | hc
  · exact List.mem_takeWhile_imp hc
  · exact h c (List.mem_reverse.mpr hc)

theorem ne_of_not_mem {s : Str} {c : Char} (h : c ∉ s) : ∀ d ∈ s, decide (d ≠ c) = true := by
  intro d hd
  simp only [decide_eq_true_eq]
  rintro rfl
  exact h hd

theorem splitPoints_whole {whole : Str} (h : '.' ∉ whole) : splitPoints whole = [whole] :=
  List.splitOn_eq_singleton h

theorem splitPoints_point {whole : Str} (h : '.' ∉ whole) (rest : Str) :
    splitPoints (whole ++ '.' :: rest) = whole :: splitPoints rest :=
  List.splitOn_append_cons_self_of_not_mem h rest

theorem length_splitPoints (s : Str) : (splitPoints s).length = s.count '.' + 1 := by
  induction s with
  | nil => rfl
  | cons c s ih =>
    simp only [splitPoints] at ih ⊢
    rw [List.splitOn_cons_eq_if_modifyHead, List.count_cons]
    split <;> simp [ih]

end GuiQml.Amount
