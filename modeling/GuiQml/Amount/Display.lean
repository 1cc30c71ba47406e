import GuiQml.Amount.Text

/-!
# Typed amounts

`bitcoinamount.cpp`: what a typed text stores in a `BitcoinAmount`.
-/

namespace GuiQml.Amount

open Decimal

inductive DisplayUnit
  | btc
  | milliBTC
  | microBTC
  | sat
  deriving DecidableEq, Repr

def unitFactor : DisplayUnit → Int
  | .btc => 100000000
  | .milliBTC => 100000
  | .microBTC => 100
  | .sat => 1

def unitDecimals : DisplayUnit → Nat
  | .btc => 8
  | .milliBTC => 5
  | .microBTC => 2
  | .sat => 0

inductive Signal
  | unitChanged
  | amountChanged
  | displayChanged
  | displayWithUnitChanged
  deriving DecidableEq, Repr

structure BitcoinAmount where
  m_satoshi : Int := 0
  m_isSet : Bool := false
  m_unit : DisplayUnit := .btc
  deriving DecidableEq, Repr

namespace BitcoinAmount

variable (a : BitcoinAmount)

/-- What changes about the amount, after the label of the unit where that changes too. -/
def changes (label_changes : Bool) : List Signal :=
  (if label_changes then [.unitChanged] else []) ++ [.amountChanged, .displayChanged, .displayWithUnitChanged]

def setSatoshi (new_amount : Int) : BitcoinAmount × List Signal :=
  if a.m_satoshi ≠ new_amount || !a.m_isSet then
    let label_changes := a.m_unit == .sat && (a.m_satoshi.natAbs == 1) != (new_amount.natAbs == 1)
    ({ a with m_isSet := true, m_satoshi := new_amount }, changes label_changes)
  else (a, [])

def clear : BitcoinAmount × List Signal :=
  if !a.m_isSet && a.m_satoshi == 0 then (a, [])
  else
    let label_changes := a.m_unit == .sat && a.m_satoshi.natAbs == 1
    ({ a with m_satoshi := 0, m_isSet := false }, changes label_changes)

def sanitize (text : Str) : Str :=
  let result := text.filter fun c => c.isDigit || c == '.'
  let parts := splitPoints result
  let result := if 2 < parts.length then parts.getD 0 [] ++ '.' :: parts.getD 1 [] else result
  let decimals := unitDecimals a.m_unit
  if parts.length = 2 ∧ decimals < (parts.getD 1 []).length then
    parts.getD 0 [] ++ '.' :: (parts.getD 1 []).take decimals
  else result

def displayToSats (sanitized : Str) : Except Int64.Fault Int :=
  if sanitized.isEmpty || sanitized == ['.'] then .ok 0
  else
    let cleaned := if startsWith '.' sanitized then '0' :: sanitized else sanitized
    let parts := splitPoints cleaned
    let whole := if (parts.getD 0 []).isEmpty then 0 else (toLongLong (parts.getD 0 [])).getD 0
    let decimals := unitDecimals a.m_unit
    let frac :=
      if parts.length = 2 then (toLongLong (leftJustified decimals '0' (parts.getD 1 []))).getD 0 else 0
    let factor := unitFactor a.m_unit
    if Int64.largest / factor < whole then .ok Int64.largest
    else do Int64.add (← Int64.mul whole factor) frac

/-- The `newSat` of `fromDisplay`. -/
def newSat (text : Str) : Except Int64.Fault Int :=
  match a.m_unit with
  | .sat =>
    let digitsOnly := text.filter Char.isDigit
    .ok (if (trimmed digitsOnly).isEmpty then 0 else (toLongLong digitsOnly).getD 0)
  | _ => a.displayToSats (a.sanitize text)

def fromDisplay (text : Str) : Except Int64.Fault (BitcoinAmount × List Signal) :=
  if (trimmed text).isEmpty then .ok a.clear
  else do .ok (a.setSatoshi (← a.newSat text))

def setUnit (unit : DisplayUnit) : BitcoinAmount × List Signal :=
  if a.m_unit = unit then (a, [])
  else ({ a with m_unit := unit }, [.unitChanged, .displayChanged, .displayWithUnitChanged])

def flipUnit : BitcoinAmount × List Signal :=
  ({ a with m_unit := if a.m_unit = .sat then .btc else .sat },
    [.unitChanged, .displayChanged, .displayWithUnitChanged])

theorem setSatoshi_eq (n : Int) : (a.setSatoshi n).1 = ⟨n, true, a.m_unit⟩ := by
  unfold setSatoshi
  split
  · rfl
  · obtain ⟨m_satoshi, m_isSet, m_unit⟩ := a
    simp_all

@[simp] theorem setSatoshi_satoshi (n : Int) : (a.setSatoshi n).1.m_satoshi = n := by
  rw [setSatoshi_eq]

@[simp] theorem setSatoshi_isSet (n : Int) : (a.setSatoshi n).1.m_isSet = true := by
  rw [setSatoshi_eq]

@[simp] theorem clear_satoshi : a.clear.1.m_satoshi = 0 := by
  unfold clear
  split
  · simp_all
  · rfl

@[simp] theorem clear_isSet : a.clear.1.m_isSet = false := by
  unfold clear
  split
  · simp_all
  · rfl

end BitcoinAmount

/-! ## What a text denotes -/

/-- The digits and points of a text. -/
def kept (text : Str) : Str := text.filter fun c => c.isDigit || c == '.'

/-- The digits before the first point. -/
def wholeDigits (text : Str) : Str := (kept text).takeWhile (· ≠ '.')

/-- The digits between the first point and the second. -/
def fractionDigits (text : Str) : Str := (((kept text).dropWhile (· ≠ '.')).drop 1).takeWhile (· ≠ '.')

/-- The amount a text denotes, the largest 64-bit value where it is larger. -/
def denoted (unit : DisplayUnit) (text : Str) : Int :=
  min Int64.largest <| match unit with
    | .sat => value (text.filter Char.isDigit)
    | unit => value (wholeDigits text) * unitFactor unit +
        value (toPlaces (unitDecimals unit) (fractionDigits text))

/-- The text is stored: blank, it clears the amount, and no operation on the way overflows. -/
def Stored (a : BitcoinAmount) (text : Str) : Prop :=
  ∃ after signals, a.fromDisplay text = .ok (after, signals) ∧
    if (trimmed text).isEmpty then after.m_isSet = false ∧ after.m_satoshi = 0
    else after.m_isSet = true ∧ after.m_satoshi = denoted a.m_unit text

/-- The fraction reads as its first places: nothing cuts it where there is a second point. -/
def FractionRead (unit : DisplayUnit) (text : Str) : Prop :=
  (kept text).count '.' < 2 ∨ (fractionDigits text).length ≤ unitDecimals unit ∨
    value (fractionDigits text) = 0 ∨
    (value ((fractionDigits text).take (unitDecimals unit)) = 0 ∧
      Int64.largest < value (fractionDigits text))

/-- The whole part fits, and either saturates or leaves room for a fraction that is read as typed. The
last case stores the largest value by reading a fraction of that very value past a whole part of zero. -/
def ReadInFull (unit : DisplayUnit) (text : Str) : Prop :=
  match unit with
  | .sat => (value (text.filter Char.isDigit) : Int) ≤ Int64.largest
  | unit =>
    ((value (wholeDigits text) : Int) ≤ Int64.largest ∧
      (Int64.largest / unitFactor unit < value (wholeDigits text) ∨
        (value (wholeDigits text) * unitFactor unit +
            value (toPlaces (unitDecimals unit) (fractionDigits text)) ≤ Int64.largest ∧
          FractionRead unit text))) ∨
    (Int64.largest < value (wholeDigits text) ∧ 2 ≤ (kept text).count '.' ∧
      value (fractionDigits text) = Int64.largest)

/-! ## The parts of a text -/

theorem takeWhile_before {whole : Str} (h : '.' ∉ whole) (rest : Str) :
    (whole ++ '.' :: rest).takeWhile (· ≠ '.') = whole := by
  rw [List.takeWhile_append_of_pos (ne_of_not_mem h)]
  simp

theorem dropWhile_before {whole : Str} (h : '.' ∉ whole) (rest : Str) :
    (whole ++ '.' :: rest).dropWhile (· ≠ '.') = '.' :: rest := by
  rw [List.dropWhile_append_of_pos (ne_of_not_mem h)]
  simp

theorem wholeDigits_of_whole {text : Str} (h : '.' ∉ kept text) : wholeDigits text = kept text :=
  List.takeWhile_eq_self_iff.mpr (ne_of_not_mem h)

theorem fractionDigits_of_whole {text : Str} (h : '.' ∉ kept text) : fractionDigits text = [] := by
  rw [fractionDigits, List.dropWhile_eq_nil_iff.mpr (ne_of_not_mem h)]
  rfl

section Point

variable {text whole fraction : Str}

theorem wholeDigits_of_point {rest : Str} (hw : '.' ∉ whole) (h : kept text = whole ++ '.' :: rest) :
    wholeDigits text = whole := by
  rw [wholeDigits, h, takeWhile_before hw]

theorem fractionDigits_of_point (hw : '.' ∉ whole) (hf : '.' ∉ fraction)
    (h : kept text = whole ++ '.' :: fraction) : fractionDigits text = fraction := by
  rw [fractionDigits, h, dropWhile_before hw, List.drop_one, List.tail_cons]
  exact List.takeWhile_eq_self_iff.mpr (ne_of_not_mem hf)

theorem fractionDigits_of_points {rest : Str} (hw : '.' ∉ whole) (hf : '.' ∉ fraction)
    (h : kept text = whole ++ '.' :: (fraction ++ '.' :: rest)) : fractionDigits text = fraction := by
  rw [fractionDigits, h, dropWhile_before hw, List.drop_one, List.tail_cons, takeWhile_before hf]

end Point

theorem digits_of_kept {text part : Str} (hsub : ∀ c ∈ part, c ∈ kept text) (h : '.' ∉ part) :
    Digits part := by
  intro c hc
  have hkept := (List.mem_filter.mp (hsub c hc)).2
  simp only [Bool.or_eq_true, beq_iff_eq] at hkept
  rcases hkept with hdigit | rfl
  · exact hdigit
  · exact absurd hc h

theorem kept_cases (text : Str) :
    '.' ∉ kept text ∨
      (∃ whole fraction, '.' ∉ whole ∧ '.' ∉ fraction ∧ kept text = whole ++ '.' :: fraction) ∨
      ∃ whole fraction rest, '.' ∉ whole ∧ '.' ∉ fraction ∧
        kept text = whole ++ '.' :: (fraction ++ '.' :: rest) := by
  by_cases hpoint : '.' ∈ kept text
  · right
    obtain ⟨whole, rest, hkept, hw⟩ := List.eq_append_cons_of_mem hpoint
    by_cases hmore : '.' ∈ rest
    · obtain ⟨fraction, rest, rfl, hf⟩ := List.eq_append_cons_of_mem hmore
      exact .inr ⟨whole, fraction, rest, hw, hf, hkept⟩
    · exact .inl ⟨whole, rest, hw, hmore, hkept⟩
  · exact .inl hpoint

theorem wholeDigits_digits (text : Str) : Digits (wholeDigits text) := by
  refine digits_of_kept (fun c hc => (List.takeWhile_sublist _).mem hc) ?_
  intro hmem
  simpa using List.mem_takeWhile_imp hmem

theorem fractionDigits_digits (text : Str) : Digits (fractionDigits text) := by
  refine digits_of_kept (fun (c : Char) hc => (?_ : c ∈ kept text)) ?_
  · have hdrop := (List.takeWhile_sublist _).mem hc
    exact (List.dropWhile_sublist _).mem (List.mem_of_mem_drop hdrop)
  · intro hmem
    simpa using List.mem_takeWhile_imp hmem

/-! ## What is read -/

/-- The value read from digits, zero where they are too large. -/
def read (s : Str) : Int := if (value s : Int) ≤ Int64.largest then (value s : Int) else 0

theorem toLongLong_read {s : Str} (h : Digits s) : (toLongLong s).getD 0 = read s := toLongLong_getD h

/-- The fraction that reaches `displayToSats`. A second point keeps it from being cut. -/
def keptFraction (unit : DisplayUnit) (text : Str) : Str :=
  if (kept text).count '.' < 2 then (fractionDigits text).take (unitDecimals unit)
  else fractionDigits text

/-- The last steps of `displayToSats`. -/
def scaled (factor whole frac : Int) : Except Int64.Fault Int :=
  if Int64.largest / factor < whole then .ok Int64.largest
  else do Int64.add (← Int64.mul whole factor) frac

namespace BitcoinAmount

variable (a : BitcoinAmount)

theorem sanitize_of_whole {text : Str} (h : '.' ∉ kept text) : a.sanitize text = kept text := by
  unfold kept at h ⊢
  simp [sanitize, splitPoints_whole h]

theorem sanitize_of_point {text : Str} (h : '.' ∈ kept text) :
    a.sanitize text = wholeDigits text ++ '.' :: keptFraction a.m_unit text := by
  rcases kept_cases text with hno | ⟨whole, fraction, hw, hf, hkept⟩ | ⟨whole, fraction, rest, hw, hf, hkept⟩
  · exact absurd h hno
  · have hcount : (kept text).count '.' < 2 := by
      rw [hkept, List.count_append, List.count_cons_self, List.count_eq_zero_of_not_mem hw,
        List.count_eq_zero_of_not_mem hf]
      omega
    rw [wholeDigits_of_point hw hkept, keptFraction, if_pos hcount, fractionDigits_of_point hw hf hkept]
    unfold kept at hkept
    simp only [sanitize, hkept, splitPoints_point hw, splitPoints_whole hf]
    by_cases hlong : unitDecimals a.m_unit < fraction.length
    · simp [hlong]
    · simp [hlong, List.take_of_length_le (Nat.le_of_not_lt hlong)]
  · have hcount : ¬(kept text).count '.' < 2 := by
      rw [hkept, List.count_append, List.count_cons_self, List.count_append, List.count_cons_self]
      omega
    rw [wholeDigits_of_point hw hkept, keptFraction, if_neg hcount, fractionDigits_of_points hw hf hkept]
    unfold kept at hkept
    simp only [sanitize, hkept, splitPoints_point hw, splitPoints_point hf]
    have hparts : 0 < (splitPoints rest).length := by
      rw [length_splitPoints]
      omega
    simp [hparts, hparts.ne']

theorem displayToSats_of_whole {whole : Str} (h : Digits whole) :
    a.displayToSats whole = scaled (unitFactor a.m_unit) (read whole) 0 := by
  have hpoint : '.' ∉ whole := Digits.not_point h
  by_cases hne : whole = []
  · subst hne
    cases a.m_unit <;> rfl
  · have hstart : startsWith '.' whole = false := by
      simp only [startsWith, beq_eq_false_iff_ne, ne_eq]
      intro hhead
      exact hpoint (List.mem_of_mem_head? hhead)
    have hdot : whole ≠ ['.'] := by
      rintro rfl
      simp at hpoint
    simp [displayToSats, hne, hdot, hstart, splitPoints_whole hpoint, toLongLong_read h, scaled]

theorem displayToSats_of_point {whole fraction : Str} (hw : Digits whole) (hf : Digits fraction) :
    a.displayToSats (whole ++ '.' :: fraction) =
      scaled (unitFactor a.m_unit) (read whole)
        (read (leftJustified (unitDecimals a.m_unit) '0' fraction)) := by
  have hpoint : '.' ∉ whole := Digits.not_point hw
  have hjust : Digits (leftJustified (unitDecimals a.m_unit) '0' fraction) := by
    intro c hc
    rcases List.mem_append.mp hc with hc | hc
    · exact hf c hc
    · rw [List.eq_of_mem_replicate hc]
      rfl
  by_cases hne : whole = []
  · subst hne
    by_cases hfrac : fraction = []
    · subst hfrac
      cases a.m_unit <;> rfl
    · have hzero : (toLongLong ['0']).getD 0 = read [] := rfl
      have hdot : '.' ∉ ['0'] := by decide
      have hsplit := splitPoints_point hdot fraction
      simp only [List.cons_append, List.nil_append] at hsplit
      simp [displayToSats, hfrac, startsWith, hsplit, splitPoints_whole (Digits.not_point hf),
        toLongLong_read hjust, hzero, scaled]
  · obtain ⟨c, rest, rfl⟩ := List.exists_cons_of_ne_nil hne
    have hc : c ≠ '.' := by
      rintro rfl
      simp at hpoint
    have hsplit := splitPoints_point hpoint fraction
    rw [List.cons_append] at hsplit
    simp [displayToSats, startsWith, hc, hsplit, splitPoints_whole (Digits.not_point hf),
      toLongLong_read hjust, toLongLong_read hw, scaled]

end BitcoinAmount

theorem read_nonneg (s : Str) : 0 ≤ read s := by
  unfold read
  split <;> omega

theorem read_le (s : Str) : read s ≤ Int64.largest := by
  unfold read Int64.largest
  split <;> omega

/-- What follows the point, as `displayToSats` reads it. -/
def readFraction (unit : DisplayUnit) (text : Str) : Int :=
  read (leftJustified (unitDecimals unit) '0' (keptFraction unit text))

theorem value_toPlaces_le (unit : DisplayUnit) (text : Str) :
    (value (toPlaces (unitDecimals unit) (fractionDigits text)) : Int) < Int64.largest := by
  have hlt := value_toPlaces_lt (fractionDigits_digits text) (unitDecimals unit)
  have hpow : 10 ^ unitDecimals unit ≤ 100000000 := by cases unit <;> decide
  unfold Int64.largest
  omega

theorem readFraction_cut {unit : DisplayUnit} {text : Str}
    (h : (kept text).count '.' < 2 ∨ (fractionDigits text).length ≤ unitDecimals unit) :
    readFraction unit text = value (toPlaces (unitDecimals unit) (fractionDigits text)) := by
  have hplaces : leftJustified (unitDecimals unit) '0' (keptFraction unit text) =
      toPlaces (unitDecimals unit) (fractionDigits text) := by
    unfold keptFraction
    split
    · simp only [leftJustified, toPlaces, List.length_take]
      congr 2
      omega
    · have hlen : (fractionDigits text).length ≤ unitDecimals unit := h.resolve_left ‹_›
      rw [toPlaces_of_le hlen, leftJustified]
  rw [readFraction, hplaces, read, if_pos (value_toPlaces_le unit text).le]

theorem readFraction_long {unit : DisplayUnit} {text : Str} (hpoints : 2 ≤ (kept text).count '.')
    (hlong : unitDecimals unit < (fractionDigits text).length) :
    readFraction unit text = read (fractionDigits text) := by
  rw [readFraction, keptFraction, if_neg (by omega), leftJustified, Nat.sub_eq_zero_of_le hlong.le,
    List.replicate_zero, List.append_nil]

theorem toPlaces_long {unit : DisplayUnit} {text : Str}
    (hlong : unitDecimals unit < (fractionDigits text).length) :
    toPlaces (unitDecimals unit) (fractionDigits text) = (fractionDigits text).take (unitDecimals unit) :=
  toPlaces_of_ge hlong.le

theorem fractionRead_iff (unit : DisplayUnit) (text : Str) :
    readFraction unit text = value (toPlaces (unitDecimals unit) (fractionDigits text)) ↔
      FractionRead unit text := by
  by_cases hcut : (kept text).count '.' < 2 ∨ (fractionDigits text).length ≤ unitDecimals unit
  · refine iff_of_true (readFraction_cut hcut) ?_
    rcases hcut with hpoints | hlen
    · exact .inl hpoints
    · exact .inr (.inl hlen)
  · simp only [not_or, Nat.not_lt, Nat.not_le] at hcut
    obtain ⟨hpoints, hlong⟩ := hcut
    have hcutvalue := value_eq_take_iff hlong
    rw [readFraction_long hpoints hlong, toPlaces_long hlong]
    simp only [FractionRead, Nat.not_lt.mpr hpoints, Nat.not_le.mpr hlong, false_or]
    by_cases hfits : (value (fractionDigits text) : Int) ≤ Int64.largest
    · rw [read, if_pos hfits, Nat.cast_inj, hcutvalue]
      simp [not_lt.mpr hfits]
    · have hzero : value (fractionDigits text) ≠ 0 := by
        intro hzero
        rw [hzero] at hfits
        exact hfits (by decide)
      rw [read, if_neg hfits]
      simp only [hzero, false_or, not_le.mp hfits, and_true]
      omega

/-- Nothing read past a cut lies between zero and what is typed. -/
theorem readFraction_ge (unit : DisplayUnit) (text : Str) :
    readFraction unit text = 0 ∨
      (value (toPlaces (unitDecimals unit) (fractionDigits text)) : Int) ≤ readFraction unit text := by
  by_cases hcut : (kept text).count '.' < 2 ∨ (fractionDigits text).length ≤ unitDecimals unit
  · exact .inr (readFraction_cut hcut).ge
  · simp only [not_or, Nat.not_lt, Nat.not_le] at hcut
    obtain ⟨hpoints, hlong⟩ := hcut
    rw [readFraction_long hpoints hlong, toPlaces_long hlong]
    have hsplit := value_take_drop (fractionDigits text) (unitDecimals unit)
    have hpow := Nat.one_le_pow ((fractionDigits text).drop (unitDecimals unit)).length 10 (by decide)
    have hmul := Nat.mul_le_mul_left (value ((fractionDigits text).take (unitDecimals unit))) hpow
    unfold read
    split
    · right
      omega
    · exact .inl rfl

theorem readFraction_largest (unit : DisplayUnit) (text : Str) :
    readFraction unit text = Int64.largest ↔
      2 ≤ (kept text).count '.' ∧ (value (fractionDigits text) : Int) = Int64.largest := by
  have hsmall := value_toPlaces_le unit text
  by_cases hcut : (kept text).count '.' < 2 ∨ (fractionDigits text).length ≤ unitDecimals unit
  · rw [readFraction_cut hcut]
    constructor
    · intro hlargest
      omega
    · rintro ⟨hpoints, hlargest⟩
      have hlen : (fractionDigits text).length ≤ unitDecimals unit := hcut.resolve_left (by omega)
      have hpow : 10 ^ unitDecimals unit ≤ 100000000 := by cases unit <;> decide
      have hmono := Nat.pow_le_pow_right (by decide : 0 < 10) hlen
      have hlt := value_lt (fractionDigits_digits text)
      unfold Int64.largest at hlargest
      omega
  · simp only [not_or, Nat.not_lt, Nat.not_le] at hcut
    obtain ⟨hpoints, hlong⟩ := hcut
    rw [readFraction_long hpoints hlong]
    unfold read
    split
    · simp [hpoints]
    · simp only [hpoints, true_and]
      unfold Int64.largest at *
      omega

/-! ## Scaling -/

theorem scaled_iff {factor whole cut frac : Int} (hfactor : 2 ≤ factor) (heven : factor % 2 = 0)
    (hwhole : 0 ≤ whole) (hcut : 0 ≤ cut) (hfrac : 0 ≤ frac) (hfits : frac ≤ Int64.largest)
    (hread : frac = 0 ∨ cut ≤ frac) :
    scaled factor (if whole ≤ Int64.largest then whole else 0) frac =
        .ok (min Int64.largest (whole * factor + cut)) ↔
      (whole ≤ Int64.largest ∧ (Int64.largest / factor < whole ∨
        (whole * factor + cut ≤ Int64.largest ∧ frac = cut))) ∨
      (Int64.largest < whole ∧ frac = Int64.largest) := by
  have hscaled : 0 ≤ whole * factor := Int.mul_nonneg hwhole (by omega)
  have hdiv := Int.mul_ediv_add_emod Int64.largest factor
  have hmod := Int.emod_nonneg Int64.largest (by omega : factor ≠ 0)
  unfold scaled
  by_cases hlarge : Int64.largest < whole
  · -- The whole part reads as zero, and only the fraction is stored.
    have hmul := Int.mul_le_mul_of_nonneg_left hfactor hwhole
    have hquot : 0 ≤ Int64.largest / factor := Int.ediv_nonneg (by decide) (by omega)
    rw [if_neg (not_le.mpr hlarge), if_neg (by omega), Int64.mul_add_of_nonneg (by omega) hfrac,
      Int64.narrow_eq_ok, Int64.fits_of_nonneg (by omega), min_eq_left (by omega)]
    simp only [Int.zero_mul, Int.zero_add, hfits, true_and, hlarge]
    omega
  · rw [not_lt] at hlarge
    rw [if_pos hlarge]
    by_cases hsat : Int64.largest / factor < whole
    · have hover : Int64.largest < whole * factor := Int.lt_mul_of_ediv_lt (by omega) hsat
      rw [if_pos hsat, min_eq_left (by omega)]
      simp [hlarge, hsat]
    · rw [if_neg hsat, Int64.mul_add_of_nonneg hscaled hfrac, Int64.narrow_eq_ok,
        Int64.fits_of_nonneg (by omega)]
      simp only [hlarge, hsat, false_or, true_and, not_lt.mpr hlarge, false_and, or_false]
      by_cases hroom : whole * factor + cut ≤ Int64.largest
      · rw [min_eq_right hroom]
        omega
      · -- The largest value is odd, so the whole part alone cannot reach it.
        have hodd : whole * factor % 2 = 0 := by
          rw [Int.mul_emod, heven]
          simp
        rw [min_eq_left (by omega)]
        unfold Int64.largest at *
        omega

/-! ## What is stored -/

theorem displayToSats_sanitize (a : BitcoinAmount) (text : Str) :
    a.displayToSats (a.sanitize text) =
      scaled (unitFactor a.m_unit) (read (wholeDigits text)) (readFraction a.m_unit text) := by
  by_cases hpoint : '.' ∈ kept text
  · have hfraction : Digits (keptFraction a.m_unit text) := by
      unfold keptFraction
      split
      · exact (fractionDigits_digits text).take _
      · exact fractionDigits_digits text
    rw [a.sanitize_of_point hpoint, a.displayToSats_of_point (wholeDigits_digits text) hfraction]
    rfl
  · have hzero : readFraction a.m_unit text = 0 := by
      rw [readFraction_cut (.inl (by simp [List.count_eq_zero_of_not_mem hpoint])),
        fractionDigits_of_whole hpoint, toPlaces_of_le (Nat.zero_le _), List.nil_append,
        value_replicate_zero]
      rfl
    rw [a.sanitize_of_whole hpoint, ← wholeDigits_of_whole hpoint,
      a.displayToSats_of_whole (wholeDigits_digits text), hzero]

theorem newSat_sat_iff {a : BitcoinAmount} (text : Str) (hunit : a.m_unit = .sat) :
    a.newSat text = .ok (denoted a.m_unit text) ↔ ReadInFull a.m_unit text := by
  have hdigits : Digits (text.filter Char.isDigit) := fun c hc => (List.mem_filter.mp hc).2
  have hread : a.newSat text = .ok (read (text.filter Char.isDigit)) := by
    simp only [BitcoinAmount.newSat, hunit, trimmed_digits hdigits, toLongLong_read hdigits]
    split
    · rename_i hempty
      rw [List.isEmpty_iff.mp hempty]
      rfl
    · rfl
  rw [hread, hunit]
  simp only [read, denoted, ReadInFull, Int64.largest, Except.ok.injEq]
  omega

theorem newSat_point_iff {a : BitcoinAmount} (text : Str) (hunit : a.m_unit ≠ .sat) :
    a.newSat text = .ok (denoted a.m_unit text) ↔ ReadInFull a.m_unit text := by
  have hscaled := @scaled_iff (unitFactor a.m_unit) (value (wholeDigits text))
    (value (toPlaces (unitDecimals a.m_unit) (fractionDigits text))) (readFraction a.m_unit text)
    (by revert hunit; cases a.m_unit <;> decide) (by revert hunit; cases a.m_unit <;> decide)
    (by omega) (by omega) (read_nonneg _) (read_le _) (readFraction_ge _ _)
  rw [fractionRead_iff, readFraction_largest] at hscaled
  have hsanitize := displayToSats_sanitize a text
  rw [read] at hsanitize
  cases hu : a.m_unit with
  | sat => exact absurd hu hunit
  | _ =>
    simp only [BitcoinAmount.newSat, hu, hsanitize]
    simpa only [denoted, ReadInFull, hu] using hscaled

theorem setSatoshi_stores_iff (a : BitcoinAmount) (read : Except Int64.Fault Int) (amount : Int) :
    (∃ after signals, (do .ok (a.setSatoshi (← read))) = Except.ok (after, signals) ∧
      after.m_isSet = true ∧ after.m_satoshi = amount) ↔ read = .ok amount := by
  constructor
  · rintro ⟨after, signals, hrun, -, hsats⟩
    cases read with
    | error fault => cases hrun
    | ok n =>
      have hset : a.setSatoshi n = (after, signals) := Except.ok.inj hrun
      have hfirst : (a.setSatoshi n).1 = after := congrArg Prod.fst hset
      rw [← hsats, ← hfirst, a.setSatoshi_satoshi]
  · rintro rfl
    exact ⟨_, _, rfl, a.setSatoshi_isSet amount, a.setSatoshi_satoshi amount⟩

/-- A text is stored as the amount it denotes exactly where it is blank or read in full. -/
theorem fromDisplay_stored_iff (a : BitcoinAmount) (text : Str) :
    Stored a text ↔ (trimmed text).isEmpty = true ∨ ReadInFull a.m_unit text := by
  unfold Stored BitcoinAmount.fromDisplay
  by_cases hblank : (trimmed text).isEmpty = true
  · simp only [hblank, if_true, true_or, iff_true]
    exact ⟨_, _, rfl, a.clear_isSet, a.clear_satoshi⟩
  · simp only [hblank, Bool.false_eq_true, if_false, false_or]
    rw [setSatoshi_stores_iff]
    by_cases hunit : a.m_unit = .sat
    · exact newSat_sat_iff text hunit
    · exact newSat_point_iff text hunit

/-- Two points keep the ninth decimal, and ten times the amount is stored. -/
theorem not_stored_second_point :
    ¬Stored {} ['0', '.', '1', '2', '3', '4', '5', '6', '7', '8', '9', '.'] := by
  rintro ⟨after, signals, hrun, hafter⟩
  have hstores : BitcoinAmount.fromDisplay {} ['0', '.', '1', '2', '3', '4', '5', '6', '7', '8', '9', '.'] =
      .ok (⟨123456789, true, .btc⟩, [.amountChanged, .displayChanged, .displayWithUnitChanged]) := by
    decide
  rw [hstores] at hrun
  obtain ⟨rfl, -⟩ := Prod.mk.inj (Except.ok.inj hrun)
  revert hafter
  decide

end GuiQml.Amount
