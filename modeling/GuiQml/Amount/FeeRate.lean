import GuiQml.Amount.Text
import Mathlib.Data.Rat.Cast.Order
import Mathlib.Tactic.FieldSimp
import Mathlib.Tactic.Ring

/-!
# Typed fee rates

`ParseCustomFeeRatePerKvB` of `walletqmlmodel.cpp`: the rate a typed text gives, in satoshis for a
thousand virtual bytes.
-/

namespace GuiQml.Amount

open Decimal

def feeRateBasisVbytes : Int := 1000

/-- `[0-9]+(?:\.[0-9]{0,3})?` over all of a text. -/
def matchesWhole (s : Str) : Bool :=
  let whole := s.takeWhile Char.isDigit
  let rest := s.dropWhile Char.isDigit
  !whole.isEmpty && (rest.isEmpty || (rest.head? == some '.' && rest.tail.all Char.isDigit &&
    decide (rest.tail.length ≤ 3)))

/-- `CUSTOM_FEE_RATE_PATTERN`. The end it asks for may also be a last line break. -/
def hasMatch (s : Str) : Bool :=
  matchesWhole s || (s.getLast? == some '\n' && matchesWhole s.dropLast)

def parseCustomFeeRatePerKvB (custom_fee_rate : Str) (minimum_fee_rate_per_kvb : Int) :
    Except Int64.Fault (Option Int) :=
  let trimmed := trimmed custom_fee_rate
  if trimmed.isEmpty || !hasMatch trimmed then .ok none
  else
    let parts := splitPoints trimmed
    match toLongLong (parts.getD 0 []) with
    | none => .ok none
    | some whole_part =>
      let fractional_part := if parts.length = 2 then parts.getD 1 [] else []
      -- The loop appends zeros up to three places.
      let fractional_part := leftJustified 3 '0' fractional_part
      match if fractional_part.isEmpty then some 0 else toLongLong fractional_part with
      | none => .ok none
      | some fractional_value => do
        let fee_rate_per_kvb ← Int64.add (← Int64.mul whole_part feeRateBasisVbytes) fractional_value
        .ok (if fee_rate_per_kvb < minimum_fee_rate_per_kvb then none else some fee_rate_per_kvb)

/-! ## What a text denotes -/

/-- `s` is digits, and after a point at most three more. -/
structure Parts (s whole fraction : Str) : Prop where
  nonempty : whole ≠ []
  whole_digits : Digits whole
  fraction_digits : Digits fraction
  places : fraction.length ≤ 3
  text : (s = whole ∧ fraction = []) ∨ s = whole ++ '.' :: fraction

/-- The number written as `whole.fraction`. -/
def decimal (whole fraction : Str) : ℚ := value whole + value fraction / 10 ^ fraction.length

/-- The text matches the pattern, and `rate` is a thousand times the number it is. -/
def Denotes (s : Str) (rate : Int) : Prop :=
  ∃ whole fraction, Parts s whole fraction ∧ (rate : ℚ) = decimal whole fraction * 1000

/-- A rate is returned exactly where the text denotes it, it fits, and it is at least the minimum. No
operation overflows. -/
def ParsesExactly (text : Str) (minimum : Int) : Prop :=
  ∃ result, parseCustomFeeRatePerKvB text minimum = .ok result ∧
    ∀ rate, result = some rate ↔ Denotes (trimmed text) rate ∧ Int64.Fits rate ∧ minimum ≤ rate

/-- A whole part that fits still fits a thousand times larger, with the fraction. -/
def ScalesInRange (text : Str) : Prop :=
  ∀ whole fraction, Parts (trimmed text) whole fraction → (value whole : Int) ≤ Int64.largest →
    (value whole * 1000 + value (toPlaces 3 fraction) : Int) ≤ Int64.largest

/-! ## The pattern -/

namespace Parts

variable {s whole fraction : Str}

theorem split (h : Parts s whole fraction) :
    (splitPoints s).getD 0 [] = whole ∧
      (if (splitPoints s).length = 2 then (splitPoints s).getD 1 [] else []) = fraction := by
  have hpoint := Digits.not_point h.whole_digits
  rcases h.text with ⟨rfl, rfl⟩ | rfl
  · simp [splitPoints_whole hpoint]
  · simp [splitPoints_point hpoint, splitPoints_whole (Digits.not_point h.fraction_digits)]

theorem unique {whole' fraction' : Str} (h : Parts s whole fraction) (h' : Parts s whole' fraction') :
    whole' = whole ∧ fraction' = fraction :=
  ⟨h'.split.1.symm.trans h.split.1, h'.split.2.symm.trans h.split.2⟩

theorem ne_nil (h : Parts s whole fraction) : s ≠ [] := by
  rcases h.text with ⟨rfl, -⟩ | rfl
  · exact h.nonempty
  · simp

end Parts

theorem takeWhile_digits {whole : Str} (h : Digits whole) (rest : Str) :
    (whole ++ '.' :: rest).takeWhile Char.isDigit = whole := by
  rw [List.takeWhile_append_of_pos h]
  simp [Char.isDigit]

theorem dropWhile_digits_point {whole : Str} (h : Digits whole) (rest : Str) :
    (whole ++ '.' :: rest).dropWhile Char.isDigit = '.' :: rest := by
  rw [List.dropWhile_append_of_pos h]
  simp [Char.isDigit]

theorem matchesWhole_iff (s : Str) :
    matchesWhole s = true ↔ ∃ whole fraction, Parts s whole fraction := by
  have hcut := List.takeWhile_append_dropWhile (p := Char.isDigit) (l := s)
  have hwhole : Digits (s.takeWhile Char.isDigit) := fun c hc => List.mem_takeWhile_imp hc
  constructor
  · intro hmatch
    simp only [matchesWhole, Bool.and_eq_true, Bool.or_eq_true, Bool.not_eq_true', beq_iff_eq,
      List.isEmpty_iff, List.isEmpty_eq_false_iff, decide_eq_true_eq, List.all_eq_true] at hmatch
    obtain ⟨hne, hend | ⟨⟨hpoint, hfraction⟩, hplaces⟩⟩ := hmatch
    · rw [hend, List.append_nil] at hcut
      exact ⟨_, [], hne, hwhole, by simp [Digits], by simp, .inl ⟨hcut.symm, rfl⟩⟩
    · obtain ⟨rest, hrest⟩ := List.head?_eq_some_iff.mp hpoint
      rw [hrest] at hcut hfraction hplaces
      exact ⟨_, rest, hne, hwhole, hfraction, hplaces, .inr hcut.symm⟩
  · rintro ⟨whole, fraction, h⟩
    rcases h.text with ⟨rfl, rfl⟩ | rfl
    · have hall : s.takeWhile Char.isDigit = s := List.takeWhile_eq_self_iff.mpr h.whole_digits
      have hnone : s.dropWhile Char.isDigit = [] := List.dropWhile_eq_nil_iff.mpr h.whole_digits
      simp [matchesWhole, hall, hnone, h.nonempty]
    · have hfraction := h.fraction_digits
      simp only [Digits] at hfraction
      simpa [matchesWhole, takeWhile_digits h.whole_digits, dropWhile_digits_point h.whole_digits,
        h.nonempty, h.places] using hfraction

theorem getLast?_trimmed (s : Str) (c : Char) (h : (trimmed s).getLast? = some c) : isSpace c = false := by
  rw [trimmed, List.getLast?_reverse] at h
  have hstop := List.head?_dropWhile_not isSpace (s.dropWhile isSpace).reverse
  rw [h] at hstop
  simpa using hstop

theorem hasMatch_trimmed (s : Str) : hasMatch (trimmed s) = matchesWhole (trimmed s) := by
  unfold hasMatch
  by_cases hlast : (trimmed s).getLast? = some '\n'
  · exact absurd (getLast?_trimmed s '\n' hlast) (by decide)
  · simp [hlast]

/-! ## The rate -/

theorem rate_denoted {s whole fraction : Str} (h : Parts s whole fraction) (rate : Int) :
    Denotes s rate ↔ rate = value whole * 1000 + value (toPlaces 3 fraction) := by
  have hexact : decimal whole fraction * 1000 =
      ((value whole * 1000 + value (toPlaces 3 fraction) : Int) : ℚ) := by
    have hplaces : fraction.length + (3 - fraction.length) = 3 := by
      have := h.places
      omega
    have hpow : (10 : ℚ) ^ fraction.length * 10 ^ (3 - fraction.length) = 1000 := by
      rw [← pow_add, hplaces]
      norm_num
    have hne : (10 : ℚ) ^ fraction.length ≠ 0 := pow_ne_zero _ (by norm_num)
    rw [toPlaces_of_le h.places, value_append_zeros, decimal]
    push_cast
    rw [← hpow]
    field_simp
  constructor
  · rintro ⟨whole', fraction', h', hrate⟩
    obtain ⟨rfl, rfl⟩ := h.unique h'
    rw [hexact] at hrate
    exact_mod_cast hrate
  · rintro rfl
    exact ⟨whole, fraction, h, hexact.symm⟩

theorem scalesInRange_iff {text whole fraction : Str} (h : Parts (trimmed text) whole fraction) :
    ScalesInRange text ↔ ((value whole : Int) ≤ Int64.largest →
      (value whole * 1000 + value (toPlaces 3 fraction) : Int) ≤ Int64.largest) := by
  constructor
  · intro hscales
    exact hscales whole fraction h
  · intro hscales whole' fraction' h'
    obtain ⟨rfl, rfl⟩ := h.unique h'
    exact hscales

theorem parse_no_match {text : Str} (minimum : Int) (h : matchesWhole (trimmed text) = false) :
    parseCustomFeeRatePerKvB text minimum = .ok none := by
  rw [parseCustomFeeRatePerKvB, hasMatch_trimmed, h]
  simp

theorem parse_too_long {text whole fraction : Str} (minimum : Int)
    (h : Parts (trimmed text) whole fraction) (hlarge : Int64.largest < value whole) :
    parseCustomFeeRatePerKvB text minimum = .ok none := by
  have hwhole : toLongLong whole = none := by
    rw [toLongLong_eq h.nonempty h.whole_digits, if_neg (not_le.mpr hlarge)]
  simp only [parseCustomFeeRatePerKvB, h.split.1, hwhole]
  split <;> rfl

theorem parse_parts {text whole fraction : Str} (minimum : Int)
    (h : Parts (trimmed text) whole fraction) (hfits : (value whole : Int) ≤ Int64.largest) :
    parseCustomFeeRatePerKvB text minimum =
      (do
        let rate ← Int64.narrow (value whole * 1000 + value (toPlaces 3 fraction))
        .ok (if rate < minimum then none else some rate)) := by
  have hmatch : matchesWhole (trimmed text) = true := (matchesWhole_iff _).mpr ⟨whole, fraction, h⟩
  have hwhole : toLongLong whole = some (value whole : Int) := by
    rw [toLongLong_eq h.nonempty h.whole_digits, if_pos hfits]
  have hjust : leftJustified 3 '0' fraction = toPlaces 3 fraction := (toPlaces_of_le h.places).symm
  have hsmall := value_toPlaces_lt h.fraction_digits 3
  have hplaces : toPlaces 3 fraction ≠ [] := by
    intro hnil
    have := length_toPlaces 3 fraction
    simp [hnil] at this
  have hfraction : toLongLong (toPlaces 3 fraction) = some (value (toPlaces 3 fraction) : Int) := by
    rw [toLongLong_eq hplaces (h.fraction_digits.toPlaces 3), if_pos (by unfold Int64.largest; omega)]
  have hrate := @Int64.mul_add_of_nonneg (value whole) 1000 (value (toPlaces 3 fraction))
    (by omega) (by omega)
  rw [← hrate]
  simp only [parseCustomFeeRatePerKvB, hasMatch_trimmed, hmatch, h.split.1, h.split.2, hwhole, hjust]
  simp [h.ne_nil, hplaces, hfraction, feeRateBasisVbytes]

/-- A rate is parsed exactly where no whole part fits and overflows when it is scaled. -/
theorem parsesExactly_iff (text : Str) (minimum : Int) : ParsesExactly text minimum ↔ ScalesInRange text := by
  cases hmatch : matchesWhole (trimmed text) with
  | false =>
    have hnone : ¬∃ whole fraction, Parts (trimmed text) whole fraction := by
      rw [← matchesWhole_iff, hmatch]
      simp
    refine iff_of_true ⟨none, parse_no_match minimum hmatch, fun rate => ?_⟩
      (fun whole fraction h _ => absurd ⟨whole, fraction, h⟩ hnone)
    simp only [reduceCtorEq, false_iff]
    rintro ⟨⟨whole, fraction, h, -⟩, -⟩
    exact hnone ⟨whole, fraction, h⟩
  | true =>
    obtain ⟨whole, fraction, h⟩ := (matchesWhole_iff _).mp hmatch
    rw [scalesInRange_iff h]
    simp only [ParsesExactly, rate_denoted h]
    by_cases hfits : (value whole : Int) ≤ Int64.largest
    · rw [parse_parts minimum h hfits]
      by_cases hroom : (value whole * 1000 + value (toPlaces 3 fraction) : Int) ≤ Int64.largest
      · have hrange : Int64.Fits (value whole * 1000 + value (toPlaces 3 fraction)) :=
          (Int64.fits_of_nonneg (by omega)).mpr hroom
        refine iff_of_true ⟨_, by rw [Int64.narrow_of_fits hrange]; rfl, fun rate => ?_⟩ (fun _ => hroom)
        split
        · simp only [reduceCtorEq, false_iff]
          rintro ⟨rfl, -, hmin⟩
          omega
        · rw [Option.some.injEq]
          constructor
          · rintro rfl
            exact ⟨rfl, hrange, by omega⟩
          · rintro ⟨rfl, -⟩
            rfl
      · have hover : ¬Int64.Fits (value whole * 1000 + value (toPlaces 3 fraction)) := by
          rw [Int64.fits_of_nonneg (by omega)]
          exact hroom
        refine iff_of_false ?_ (fun hscales => hroom (hscales hfits))
        rintro ⟨result, hrun, -⟩
        rw [Int64.narrow_of_not_fits hover] at hrun
        cases hrun
    · have hlarge : Int64.largest < value whole := not_le.mp hfits
      refine iff_of_true ⟨none, parse_too_long minimum h hlarge, fun rate => ?_⟩
        (fun hle => absurd hle hfits)
      simp only [reduceCtorEq, false_iff]
      rintro ⟨rfl, hrange, -⟩
      have hle := (Int64.fits_of_nonneg (by omega)).mp hrange
      omega

/-- A whole part that fits, a thousand times too large to be scaled. -/
theorem not_parsesExactly_overflow :
    ¬ParsesExactly (List.replicate 17 '9') 1000 := by
  rintro ⟨result, hrun, -⟩
  have hfault : parseCustomFeeRatePerKvB (List.replicate 17 '9') 1000 = .error .signedOverflow := by
    decide
  rw [hfault] at hrun
  cases hrun

end GuiQml.Amount
