import Mathlib.Algebra.BigOperators.Group.List.Basic
import Mathlib.Algebra.Ring.Int.Defs
import Mathlib.Data.Int.Notation
import Mathlib.Order.Defs.LinearOrder

/-!
# Checked arithmetic on signed 64-bit integers

C++ leaves the overflow of a signed operation undefined. An operation here gives its exact result,
or the fault where that result is no value of the type.
-/

namespace GuiQml.Int64

def largest : Int := 9223372036854775807

def smallest : Int := -9223372036854775808

/-- The values of the type. -/
def Fits (n : Int) : Prop := smallest ≤ n ∧ n ≤ largest

instance (n : Int) : Decidable (Fits n) := inferInstanceAs (Decidable (_ ∧ _))

inductive Fault
  | signedOverflow
  deriving DecidableEq, Repr

def narrow (n : Int) : Except Fault Int := if Fits n then .ok n else .error .signedOverflow

def add (a b : Int) : Except Fault Int := narrow (a + b)

def sub (a b : Int) : Except Fault Int := narrow (a - b)

def mul (a b : Int) : Except Fault Int := narrow (a * b)

theorem narrow_of_fits {n : Int} (h : Fits n) : narrow n = .ok n := if_pos h

theorem narrow_of_not_fits {n : Int} (h : ¬Fits n) : narrow n = .error .signedOverflow := if_neg h

theorem narrow_eq_ok {n m : Int} : narrow n = .ok m ↔ Fits n ∧ n = m := by
  unfold narrow
  split <;> simp_all

theorem fits_of_nonneg {n : Int} (h : 0 ≤ n) : Fits n ↔ n ≤ largest := by
  simp only [Fits, smallest, largest]
  omega

theorem fits_sub {a b : Int} (ha : Fits a) (hb : 0 ≤ b) (h : b ≤ a) : Fits (a - b) := by
  simp only [Fits, smallest, largest] at *
  omega

/-- A product and a sum: what they give is exact, and they fault where the result is out of range. -/
theorem mul_add_of_nonneg {a b c : Int} (hab : 0 ≤ a * b) (hc : 0 ≤ c) :
    (do add (← mul a b) c) = narrow (a * b + c) := by
  by_cases h : Fits (a * b)
  · simp only [mul, narrow_of_fits h, add]
    rfl
  · have hsum : ¬Fits (a * b + c) := by
      rw [fits_of_nonneg hab] at h
      rw [fits_of_nonneg (by omega)]
      omega
    rw [mul, narrow_of_not_fits h, narrow_of_not_fits hsum]
    rfl

/-! ## Running totals -/

section Totals

variable {α : Type} {allowed : List α → Prop} {value : α → Int} {a : α} {l : List α} {total : Int}

/-- The running totals of the values of `l`, from `total` on, are values of the type. A loop that
adds the values up reaches the totals of the parts that `allowed` admits. -/
def TotalsFit (allowed : List α → Prop) (value : α → Int) (l : List α) (total : Int) : Prop :=
  ∀ n, allowed (l.take n) → Fits (total + ((l.take n).map value).sum)

theorem totalsFit_nil (h : allowed []) : TotalsFit allowed value [] total ↔ Fits total := by
  simp [TotalsFit, h]

theorem totalsFit_cons (h : allowed []) :
    TotalsFit allowed value (a :: l) total ↔
      Fits total ∧ TotalsFit (fun done => allowed (a :: done)) value l (total + value a) := by
  constructor
  · intro hfit
    refine ⟨by simpa using hfit 0 (by simpa using h), fun n hn => ?_⟩
    have := hfit (n + 1) (by simpa using hn)
    simpa [add_assoc] using this
  · rintro ⟨hfirst, hrest⟩ n hn
    rcases n with _ | n
    · simpa using hfirst
    · have := hrest n (by simpa using hn)
      simpa [add_assoc] using this

theorem TotalsFit.whole (hfit : TotalsFit allowed value l total) (h : allowed l) :
    Fits (total + (l.map value).sum) := by
  have := hfit l.length (by rwa [List.take_length])
  rwa [List.take_length] at this

theorem totalsFit_of_not (h : ∀ done, ¬allowed done) : TotalsFit allowed value l total :=
  fun _ hn => absurd hn (h _)

end Totals

end GuiQml.Int64
