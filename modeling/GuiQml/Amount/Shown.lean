import GuiQml.Amount.Display

/-!
# Shown amounts

`bitcoinunits.cpp` and `BitcoinAmount::toDisplay`: the text that an amount is shown as.
-/

namespace GuiQml.Amount

open Decimal

namespace QmlBitcoinUnits

inductive Unit
  | btc
  | mBTC
  | uBTC
  | sat
  deriving DecidableEq, Repr

inductive SeparatorStyle
  | never
  | standard
  | always
  deriving DecidableEq, Repr

def factor : Unit → Int
  | .btc => 100000000
  | .mBTC => 100000
  | .uBTC => 100
  | .sat => 1

def decimals : Unit → Nat
  | .btc => 8
  | .mBTC => 5
  | .uBTC => 2
  | .sat => 0

/-- `QString::number` of a number that is not negative. -/
def number (n : Int) : Str := Nat.toDigits 10 n.toNat

def thinSp : Char := Char.ofNat 0x2009

/-- A thin space before every third digit from the right. -/
def insertSeparators (quotient_str : Str) : Str :=
  let q_size := quotient_str.length
  (List.range' 3 ((q_size - 1) / 3) 3).foldl (fun s i => s.insertIdx (q_size - i) thinSp) quotient_str

/-- The smallest amount has no opposite. -/
def absolute (n : Int) : Except Int64.Fault Int := if 0 < n then .ok n else Int64.sub 0 n

def format (unit : Unit) (amount : Int) (plussign : Bool) (separators : SeparatorStyle) :
    Except Int64.Fault Str := do
  let coin := factor unit
  let num_decimals := decimals unit
  let n_abs ← absolute amount
  let quotient_str := number (n_abs / coin)
  let quotient_str :=
    if separators = .always || (separators = .standard && 4 < quotient_str.length) then
      insertSeparators quotient_str
    else quotient_str
  let quotient_str :=
    if amount < 0 then '-' :: quotient_str
    else if plussign && 0 < amount then '+' :: quotient_str
    else quotient_str
  if num_decimals = 0 then .ok quotient_str
  else .ok (quotient_str ++ '.' :: rightJustified num_decimals '0' (number (n_abs % coin)))

def fromDisplayUnit (display_unit : Int) : Unit :=
  if display_unit = 0 then .btc
  else if display_unit = 1 then .mBTC
  else if display_unit = 2 then .uBTC
  else if display_unit = 3 then .sat
  else .btc

def label : Unit → Str
  | .btc => "BTC".toList
  | .mBTC => "mBTC".toList
  | .uBTC => "bits".toList
  | .sat => "sat".toList

end QmlBitcoinUnits

def toQmlUnit : DisplayUnit → QmlBitcoinUnits.Unit
  | .btc => .btc
  | .milliBTC => .mBTC
  | .microBTC => .uBTC
  | .sat => .sat

def BitcoinAmount.toDisplay (a : BitcoinAmount) : Except Int64.Fault Str :=
  if !a.m_isSet then .ok []
  else QmlBitcoinUnits.format (toQmlUnit a.m_unit) a.m_satoshi false .never

/-! ## The two tables -/

@[simp] theorem factor_toQmlUnit (unit : DisplayUnit) :
    QmlBitcoinUnits.factor (toQmlUnit unit) = unitFactor unit := by cases unit <;> rfl

@[simp] theorem decimals_toQmlUnit (unit : DisplayUnit) :
    QmlBitcoinUnits.decimals (toQmlUnit unit) = unitDecimals unit := by cases unit <;> rfl

theorem unitFactor_eq (unit : DisplayUnit) : unitFactor unit = 10 ^ unitDecimals unit := by
  cases unit <;> rfl

/-! ## The parts of a shown amount -/

/-- The digits before the point. -/
def shownWhole (unit : DisplayUnit) (amount : Int) : Str :=
  QmlBitcoinUnits.number (amount / unitFactor unit)

/-- The digits behind the point. -/
def shownFraction (unit : DisplayUnit) (amount : Int) : Str :=
  rightJustified (unitDecimals unit) '0' (QmlBitcoinUnits.number (amount % unitFactor unit))

theorem digits_number (n : Int) : Digits (QmlBitcoinUnits.number n) := digits_toDigits _

theorem value_number {n : Int} (h : 0 ≤ n) : (value (QmlBitcoinUnits.number n) : Int) = n := by
  simp only [QmlBitcoinUnits.number, value_toDigits]
  omega

theorem digits_rightJustified {s : Str} (h : Digits s) (width : Nat) :
    Digits (rightJustified width '0' s) := by
  intro c hc
  rcases List.mem_append.mp hc with hc | hc
  · rw [List.eq_of_mem_replicate hc]
    rfl
  · exact h c hc

section Parts

variable {unit : DisplayUnit} {amount : Int}

theorem shownWhole_digits : Digits (shownWhole unit amount) := digits_number _

theorem shownFraction_digits : Digits (shownFraction unit amount) :=
  digits_rightJustified (digits_number _) _

theorem unitFactor_pos : 0 < unitFactor unit := by cases unit <;> decide

theorem value_shownWhole (h : 0 ≤ amount) :
    (value (shownWhole unit amount) : Int) = amount / unitFactor unit :=
  value_number (Int.ediv_nonneg h unitFactor_pos.le)

theorem value_shownFraction :
    (value (shownFraction unit amount) : Int) = amount % unitFactor unit := by
  rw [shownFraction, rightJustified, value_zeros_append]
  exact value_number (Int.emod_nonneg _ unitFactor_pos.ne')

theorem length_shownFraction (hunit : unit ≠ .sat) :
    (shownFraction unit amount).length = unitDecimals unit := by
  have hplaces : 0 < unitDecimals unit := by revert hunit; cases unit <;> decide
  have hpositive : 0 < unitFactor unit := unitFactor_pos
  have hlt := Int.emod_lt_of_pos amount hpositive
  have hpow : (amount % unitFactor unit).toNat < 10 ^ unitDecimals unit := by
    rw [Int.toNat_lt (Int.emod_nonneg _ unitFactor_pos.ne')]
    rw [unitFactor_eq] at hlt ⊢
    exact_mod_cast hlt
  have hle := length_toDigits_le hplaces hpow
  simp only [shownFraction, rightJustified, List.length_append, List.length_replicate,
    QmlBitcoinUnits.number]
  omega

end Parts

theorem absolute_of_nonneg {n : Int} (h : 0 ≤ n) : QmlBitcoinUnits.absolute n = .ok n := by
  unfold QmlBitcoinUnits.absolute
  split
  · rfl
  · obtain rfl : n = 0 := by omega
    rfl

theorem format_never {amount : Int} (h : 0 ≤ amount) (unit : DisplayUnit) :
    QmlBitcoinUnits.format (toQmlUnit unit) amount false .never = .ok
      (if unit = .sat then shownWhole unit amount
        else shownWhole unit amount ++ '.' :: shownFraction unit amount) := by
  have hsign : ¬amount < 0 := by omega
  have hplaces : unitDecimals unit = 0 ↔ unit = .sat := by cases unit <;> decide
  simp only [QmlBitcoinUnits.format, absolute_of_nonneg h, factor_toQmlUnit, decimals_toQmlUnit, hplaces]
  simp [hsign, shownWhole, shownFraction]
  split <;> rfl

theorem toDisplay_setSatoshi {a : BitcoinAmount} {amount : Int} (h : 0 ≤ amount) :
    (a.setSatoshi amount).1.toDisplay = .ok
      (if a.m_unit = .sat then shownWhole a.m_unit amount
        else shownWhole a.m_unit amount ++ '.' :: shownFraction a.m_unit amount) := by
  rw [BitcoinAmount.setSatoshi_eq, BitcoinAmount.toDisplay]
  exact format_never h a.m_unit

/-! ## Reading back -/

section Reading

variable {unit : DisplayUnit} {amount : Int}

theorem kept_shown : kept (shownWhole unit amount ++ '.' :: shownFraction unit amount) =
    shownWhole unit amount ++ '.' :: shownFraction unit amount := by
  apply List.filter_eq_self.mpr
  intro c hc
  simp only [List.mem_append, List.mem_cons] at hc
  rcases hc with hc | rfl | hc
  · simp [shownWhole_digits c hc]
  · rfl
  · simp [shownFraction_digits c hc]

theorem shown_not_blank (rest : Str) : (trimmed (shownWhole unit amount ++ rest)).isEmpty = false := by
  obtain ⟨c, hc⟩ := List.exists_mem_of_ne_nil _
    (Nat.toDigits_ne_nil (n := (amount / unitFactor unit).toNat) (b := 10))
  by_contra hblank
  rw [Bool.not_eq_false] at hblank
  have hspace := isSpace_of_trimmed hblank c (List.mem_append_left _ hc)
  rw [isSpace_of_digit (shownWhole_digits c hc)] at hspace
  cases hspace

theorem denoted_shown (hunit : unit ≠ .sat) (h : 0 ≤ amount) (hle : amount ≤ Int64.largest) :
    denoted unit (shownWhole unit amount ++ '.' :: shownFraction unit amount) = amount ∧
      ReadInFull unit (shownWhole unit amount ++ '.' :: shownFraction unit amount) := by
  have hw : '.' ∉ shownWhole unit amount := Digits.not_point shownWhole_digits
  have hf : '.' ∉ shownFraction unit amount := Digits.not_point shownFraction_digits
  have hwhole := wholeDigits_of_point hw kept_shown
  have hfraction := fractionDigits_of_point hw hf kept_shown
  have hplaces : toPlaces (unitDecimals unit) (shownFraction unit amount) = shownFraction unit amount := by
    rw [toPlaces_of_le (length_shownFraction hunit).le, length_shownFraction hunit]
    simp
  have hsum : (value (shownWhole unit amount) : Int) * unitFactor unit +
      value (shownFraction unit amount) = amount := by
    rw [value_shownWhole h, value_shownFraction]
    exact Int.ediv_mul_add_emod amount (unitFactor unit)
  have hdiv : amount / unitFactor unit ≤ amount := Int.ediv_le_self _ h
  have hfits : (value (shownWhole unit amount) : Int) ≤ Int64.largest := by
    rw [value_shownWhole h]
    omega
  have hread : FractionRead unit (shownWhole unit amount ++ '.' :: shownFraction unit amount) := by
    right; left
    rw [hfraction]
    exact (length_shownFraction hunit).le
  constructor
  · cases unit with
    | sat => exact absurd rfl hunit
    | _ =>
      simp only [denoted, hwhole, hfraction, hplaces, hsum]
      omega
  · cases unit with
    | sat => exact absurd rfl hunit
    | _ =>
      simp only [ReadInFull, hwhole, hfraction, hplaces, hsum]
      exact .inl ⟨hfits, .inr ⟨hle, hread⟩⟩

theorem newSat_shown_sat {a : BitcoinAmount} (hunit : a.m_unit = .sat) (h : 0 ≤ amount)
    (hle : amount ≤ Int64.largest) : a.newSat (shownWhole .sat amount) = .ok amount := by
  have hfilter : (shownWhole .sat amount).filter Char.isDigit = shownWhole .sat amount :=
    List.filter_eq_self.mpr shownWhole_digits
  have hvalue : (value (shownWhole .sat amount) : Int) = amount := by
    rw [value_shownWhole h]
    exact Int.ediv_one amount
  have hdenoted : denoted .sat (shownWhole .sat amount) = amount := by
    simp only [denoted, hfilter, hvalue]
    omega
  have hread := (newSat_sat_iff (shownWhole .sat amount) hunit).mpr (by
    simp only [hunit, ReadInFull, hfilter, hvalue]
    exact hle)
  rwa [hunit, hdenoted] at hread

theorem newSat_shown {a : BitcoinAmount} (h : 0 ≤ amount) (hle : amount ≤ Int64.largest) :
    a.newSat (if a.m_unit = .sat then shownWhole a.m_unit amount
      else shownWhole a.m_unit amount ++ '.' :: shownFraction a.m_unit amount) = .ok amount := by
  split
  · rename_i hunit
    rw [hunit]
    exact newSat_shown_sat hunit h hle
  · rename_i hunit
    obtain ⟨hdenoted, hread⟩ := denoted_shown hunit h hle
    rw [(newSat_point_iff _ hunit).mpr hread, hdenoted]

end Reading

theorem fromDisplay_shown {a b : BitcoinAmount} (hunit : b.m_unit = a.m_unit) {amount : Int}
    (h : 0 ≤ amount) (hle : amount ≤ Int64.largest) :
    ∃ text signals, (a.setSatoshi amount).1.toDisplay = .ok text ∧
      b.fromDisplay text = .ok (⟨amount, true, a.m_unit⟩, signals) := by
  have hblank : (trimmed (if a.m_unit = .sat then shownWhole a.m_unit amount
      else shownWhole a.m_unit amount ++ '.' :: shownFraction a.m_unit amount)).isEmpty = false := by
    split
    · simpa using shown_not_blank []
    · exact shown_not_blank _
  have hread := newSat_shown (a := b) h hle
  rw [hunit] at hread
  refine ⟨_, (b.setSatoshi amount).2, toDisplay_setSatoshi h, ?_⟩
  rw [BitcoinAmount.fromDisplay, hblank, hread, ← hunit, ← b.setSatoshi_eq amount]
  rfl

/-- Every amount up to the largest is restored by reading what is shown for it, so no two of them are
shown alike in one unit. -/
theorem display_restores (unit : DisplayUnit) :
    (∀ amount, 0 ≤ amount → amount ≤ Int64.largest → ∀ a b : BitcoinAmount, a.m_unit = unit →
      b.m_unit = unit → ∃ text signals, (a.setSatoshi amount).1.toDisplay = .ok text ∧
        b.fromDisplay text = .ok (⟨amount, true, unit⟩, signals)) ∧
    ∀ amount other, 0 ≤ amount → amount ≤ Int64.largest → 0 ≤ other → other ≤ Int64.largest →
      amount ≠ other → ∀ a b : BitcoinAmount, a.m_unit = unit → b.m_unit = unit →
        (a.setSatoshi amount).1.toDisplay ≠ (b.setSatoshi other).1.toDisplay := by
  constructor
  · rintro amount h hle a b rfl hunit
    exact fromDisplay_shown hunit h hle
  · rintro amount other h hle h' hle' hne a b rfl hunit hshown
    obtain ⟨text, signals, htext, hread⟩ := fromDisplay_shown (rfl : a.m_unit = a.m_unit) h hle
    obtain ⟨text', signals', htext', hread'⟩ := fromDisplay_shown (a := b) (b := a) hunit.symm h' hle'
    rw [htext, htext'] at hshown
    obtain rfl := Except.ok.inj hshown
    have hsame := hread.symm.trans hread'
    apply hne
    exact congrArg (·.1.m_satoshi) (Except.ok.inj hsame)

/-- The largest amount in bitcoin, and the one before it. -/
theorem display_restores_largest :
    (∃ text signals, ((⟨0, false, .btc⟩ : BitcoinAmount).setSatoshi Int64.largest).1.toDisplay = .ok text ∧
      BitcoinAmount.fromDisplay ⟨0, false, .btc⟩ text = .ok (⟨Int64.largest, true, .btc⟩, signals)) ∧
    ((⟨0, false, .btc⟩ : BitcoinAmount).setSatoshi Int64.largest).1.toDisplay ≠
      ((⟨0, false, .btc⟩ : BitcoinAmount).setSatoshi (Int64.largest - 1)).1.toDisplay :=
  ⟨(display_restores .btc).1 Int64.largest (by decide) le_rfl _ _ rfl rfl,
    (display_restores .btc).2 Int64.largest (Int64.largest - 1) (by decide) le_rfl (by decide) (by decide)
      (by decide) _ _ rfl rfl⟩

example : BitcoinAmount.toDisplay ⟨123456789, true, .milliBTC⟩ =
    .ok ['1', '2', '3', '4', '.', '5', '6', '7', '8', '9'] := by decide

end GuiQml.Amount
