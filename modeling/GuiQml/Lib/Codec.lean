import Mathlib.Algebra.Group.Nat.Defs
import Mathlib.Data.List.Basic

/-!
# Codecs

A codec writes a value as bytes and reads it back from the front of a stream, whatever follows. The fields
of a record are written one after the other and read in the same order.
-/

/-- Takes bytes from the front of a stream, or fails. -/
abbrev Reader (α : Type) := StateT (List UInt8) Option α

theorem Reader.bind_eq {α β : Type} {read : Reader α} {v : α} {bytes rest : List UInt8}
    (h : read bytes = some (v, rest)) (f : α → Reader β) : (read >>= f) bytes = f v rest := by
  change (read bytes).bind (fun out => f out.1 out.2) = f v rest
  rw [h]
  rfl

structure Codec (α : Type) where
  write : α → List UInt8
  read : Reader α
  /-- The values that are read back. -/
  Valid : α → Prop
  nonempty : ∀ v, write v ≠ []
  read_write : ∀ v, Valid v → ∀ rest, read (write v ++ rest) = some (v, rest)

namespace Codec

variable {α β : Type}

theorem read_bind (c : Codec α) {v : α} (hv : c.Valid v) (f : α → Reader β) (rest : List UInt8) :
    (c.read >>= f) (c.write v ++ rest) = f v rest :=
  Reader.bind_eq (c.read_write v hv rest) f

@[simp] theorem isEmpty_write_append (c : Codec α) (v : α) (rest : List UInt8) :
    (c.write v ++ rest).isEmpty = false := by
  simp [c.nonempty v]

/-! ## Numbers of a fixed width -/

/-- Little endian. -/
def toBytes : Nat → Nat → List UInt8
  | 0, _ => []
  | width + 1, n => UInt8.ofNat n :: toBytes width (n / 256)

def ofBytes : List UInt8 → Nat
  | [] => 0
  | b :: bytes => b.toNat + 256 * ofBytes bytes

@[simp] theorem length_toBytes (width n : Nat) : (toBytes width n).length = width := by
  induction width generalizing n with
  | zero => rfl
  | succ width ih => simp [toBytes, ih]

theorem ofBytes_toBytes {width n : Nat} (h : n < 256 ^ width) : ofBytes (toBytes width n) = n := by
  induction width generalizing n with
  | zero =>
    simp only [Nat.pow_zero] at h
    simp only [toBytes, ofBytes]
    omega
  | succ width ih =>
    rw [Nat.pow_succ] at h
    simp only [toBytes, ofBytes]
    rw [ih (by omega), UInt8.toNat_ofNat']
    omega

/-- The next bytes, if there are so many. -/
def take (n : Nat) : Reader (List UInt8) := fun bytes =>
  if n ≤ bytes.length then some (bytes.take n, bytes.drop n) else none

theorem take_append {n : Nat} {bytes : List UInt8} (h : bytes.length = n) (rest : List UInt8) :
    take n (bytes ++ rest) = some (bytes, rest) := by
  subst h
  unfold take
  rw [if_pos (by simp)]
  simp

def readNat (width : Nat) : Reader Nat := do
  let bytes ← take width
  return ofBytes bytes

theorem readNat_toBytes {width n : Nat} (h : n < 256 ^ width) (rest : List UInt8) :
    readNat width (toBytes width n ++ rest) = some (n, rest) := by
  unfold readNat
  rw [Reader.bind_eq (take_append (length_toBytes width n) rest), ofBytes_toBytes h]
  rfl

/-- The values that are numbers of so many bytes. -/
def fixed (width : Nat) (hwidth : 0 < width) (toNat : α → Nat) (ofNat : Nat → α)
    (hrange : ∀ v, toNat v < 256 ^ width) (hinverse : ∀ v, ofNat (toNat v) = v) : Codec α where
  write v := toBytes width (toNat v)
  read := do return ofNat (← readNat width)
  Valid _ := True
  nonempty v h := by
    have hlength := congrArg List.length h
    simp only [length_toBytes, List.length_nil] at hlength
    omega
  read_write v _ rest := by
    rw [Reader.bind_eq (readNat_toBytes (hrange v) rest), hinverse]
    rfl

/-! ## Bytes after their number -/

def counted (size : Codec Nat) : Codec (List UInt8) where
  write bytes := size.write bytes.length ++ bytes
  read := do take (← size.read)
  Valid bytes := size.Valid bytes.length
  nonempty bytes := by simp [size.nonempty]
  read_write bytes h rest := by
    rw [List.append_assoc, size.read_bind h, take_append rfl]

end Codec
