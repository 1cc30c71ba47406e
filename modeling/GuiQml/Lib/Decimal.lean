import Mathlib.Data.Nat.Digits.Defs
import Mathlib.Tactic.IntervalCases

/-!
# Decimal digit strings

The number that a string of decimal digits denotes, the most significant digit first: what
appending, cutting and padding do to it.
-/

namespace GuiQml.Decimal

def digitValue (c : Char) : Nat := c.toNat - '0'.toNat

/-- The number `text` denotes. `0` for the empty string. -/
def value (text : List Char) : Nat := Nat.ofDigits 10 (text.map digitValue).reverse

/-- Every character is one of `0` to `9`. -/
def Digits (text : List Char) : Prop := ∀ c ∈ text, c.isDigit = true

instance (text : List Char) : Decidable (Digits text) :=
  decidable_of_iff (text.all Char.isDigit = true) List.all_eq_true

theorem digitValue_lt {c : Char} (h : c.isDigit = true) : digitValue c < 10 := by
  simp only [Char.isDigit, Bool.and_eq_true, decide_eq_true_eq] at h
  have hlow : 48 ≤ c.toNat := h.1
  have hhigh : c.toNat ≤ 57 := h.2
  show c.toNat - 48 < 10
  omega

@[simp] theorem value_nil : value [] = 0 := rfl

theorem value_append (front back : List Char) :
    value (front ++ back) = value front * 10 ^ back.length + value back := by
  simp only [value, List.map_append, List.reverse_append, Nat.ofDigits_append, List.length_reverse,
    List.length_map]
  rw [Nat.add_comm, Nat.mul_comm]

theorem value_lt {text : List Char} (h : Digits text) : value text < 10 ^ text.length := by
  have hdigits : ∀ d ∈ (text.map digitValue).reverse, d < 10 := by
    intro d hd
    simp only [List.mem_reverse, List.mem_map] at hd
    obtain ⟨c, hc, rfl⟩ := hd
    exact digitValue_lt (h c hc)
  simpa [value] using Nat.ofDigits_lt_base_pow_length (by norm_num : 1 < 10) hdigits

theorem value_replicate_zero (n : Nat) : value (List.replicate n '0') = 0 := by
  rw [value, List.map_replicate, List.reverse_replicate]
  exact Nat.ofDigits_replicate_zero

theorem value_append_zeros (text : List Char) (n : Nat) :
    value (text ++ List.replicate n '0') = value text * 10 ^ n := by
  rw [value_append, value_replicate_zero, List.length_replicate, Nat.add_zero]

theorem value_take_drop (text : List Char) (n : Nat) :
    value text = value (text.take n) * 10 ^ (text.drop n).length + value (text.drop n) := by
  rw [← value_append, List.take_append_drop]

theorem Digits.take {text : List Char} (h : Digits text) (n : Nat) : Digits (text.take n) :=
  fun c hc => h c (List.mem_of_mem_take hc)

/-! ## Written numbers -/

theorem digits_toDigits (n : Nat) : Digits (Nat.toDigits 10 n) := by
  intro c hc
  exact Nat.isDigit_of_mem_toDigits (by omega) (by omega) hc

theorem digitValue_digitChar {n : Nat} (h : n < 10) : digitValue n.digitChar = n := by
  interval_cases n <;> rfl

@[simp] theorem value_toDigits (n : Nat) : value (Nat.toDigits 10 n) = n := by
  induction n using Nat.strong_induction_on with
  | _ n ih =>
    rw [Nat.toDigits_eq_if (by omega)]
    split
    · rename_i hlt
      simpa [value] using digitValue_digitChar hlt
    · have hlast : value [(n % 10).digitChar] = n % 10 := by
        simpa [value] using digitValue_digitChar (n := n % 10) (by omega)
      rw [value_append, ih (n / 10) (by omega), hlast, List.length_singleton]
      omega

theorem length_toDigits_le {n places : Nat} (hplaces : 0 < places) (h : n < 10 ^ places) :
    (Nat.toDigits 10 n).length ≤ places := by
  exact (Nat.length_toDigits_le_iff (by omega) hplaces).mpr h

theorem value_zeros_append (n : Nat) (text : List Char) :
    value (List.replicate n '0' ++ text) = value text := by
  rw [value_append, value_replicate_zero]
  omega

/-! ## A fraction of so many places -/

/-- The first `places` digits of a fraction, with zeros where it has fewer. -/
def toPlaces (places : Nat) (fraction : List Char) : List Char :=
  (fraction.take places) ++ List.replicate (places - fraction.length) '0'

theorem toPlaces_of_le {places : Nat} {fraction : List Char} (h : fraction.length ≤ places) :
    toPlaces places fraction = fraction ++ List.replicate (places - fraction.length) '0' := by
  rw [toPlaces, List.take_of_length_le h]

theorem toPlaces_of_ge {places : Nat} {fraction : List Char} (h : places ≤ fraction.length) :
    toPlaces places fraction = fraction.take places := by
  rw [toPlaces, Nat.sub_eq_zero_of_le h, List.replicate_zero, List.append_nil]

@[simp] theorem length_toPlaces (places : Nat) (fraction : List Char) :
    (toPlaces places fraction).length = places := by
  simp only [toPlaces, List.length_append, List.length_take, List.length_replicate]
  omega

theorem Digits.toPlaces {fraction : List Char} (h : Digits fraction) (places : Nat) :
    Digits (toPlaces places fraction) := by
  intro c hc
  rcases List.mem_append.mp hc with hc | hc
  · exact h.take places c hc
  · rw [List.eq_of_mem_replicate hc]
    rfl

theorem value_toPlaces_lt {fraction : List Char} (h : Digits fraction) (places : Nat) :
    value (toPlaces places fraction) < 10 ^ places := by
  simpa using value_lt (h.toPlaces places)

/-- A longer fraction reads as its first places exactly when all of it is zeros. -/
theorem value_eq_take_iff {fraction : List Char} {places : Nat} (h : places < fraction.length) :
    value fraction = value (fraction.take places) ↔ value fraction = 0 := by
  have hsplit := value_take_drop fraction places
  have hpow : 10 ≤ 10 ^ (fraction.drop places).length := by
    have : (fraction.drop places).length ≠ 0 := by simp only [List.length_drop]; omega
    exact Nat.le_self_pow this 10
  have hle := Nat.mul_le_mul_left (value (fraction.take places)) hpow
  constructor
  · intro hcut
    omega
  · intro hzero
    omega

end GuiQml.Decimal
