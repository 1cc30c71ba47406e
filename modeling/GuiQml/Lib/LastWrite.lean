import Mathlib.Logic.Function.Basic
import Mathlib.Data.List.Basic
import Mathlib.Data.List.Induction

/-!
# The last write of a key

A store is a partial map, and a write sets or clears one key. Only the last write of each key counts,
so a store that already contains some of the writes does not mind seeing them again.
-/

namespace LastWrite

variable {κ ν : Type*} [DecidableEq κ]

/-- Set the key to a value, or clear it. -/
abbrev Write (κ ν : Type*) := κ × Option ν

def apply (store : κ → Option ν) (writes : List (Write κ ν)) : κ → Option ν :=
  writes.foldl (fun store w => Function.update store w.1 w.2) store

/-- What the last write of the key says, if there is one. -/
def last (writes : List (Write κ ν)) (key : κ) : Option (Option ν) :=
  writes.foldl (fun found w => if w.1 = key then some w.2 else found) none

@[simp] theorem apply_nil (store : κ → Option ν) : apply store [] = store := rfl

@[simp] theorem last_nil (key : κ) : last ([] : List (Write κ ν)) key = none := rfl

theorem apply_snoc (store : κ → Option ν) (a : List (Write κ ν)) (w : Write κ ν) :
    apply store (a ++ [w]) = Function.update (apply store a) w.1 w.2 := by
  simp [apply]

theorem last_snoc (a : List (Write κ ν)) (w : Write κ ν) (key : κ) :
    last (a ++ [w]) key = if w.1 = key then some w.2 else last a key := by
  simp [last]

theorem last_append (a b : List (Write κ ν)) (key : κ) :
    last (a ++ b) key = (last b key).or (last a key) := by
  induction b using List.reverseRecOn with
  | nil => simp
  | append_singleton b w ih =>
    rw [← List.append_assoc, last_snoc, last_snoc, ih]
    split <;> simp

/-- A key holds what its last write says, or what it held before. -/
theorem apply_eq_last (store : κ → Option ν) (writes : List (Write κ ν)) (key : κ) :
    apply store writes key = (last writes key).getD (store key) := by
  induction writes using List.reverseRecOn with
  | nil => simp
  | append_singleton a w ih =>
    rw [apply_snoc, last_snoc, Function.update_apply]
    by_cases h : w.1 = key
    · simp [h]
    · rw [if_neg (Ne.symm h), if_neg h, ih]

theorem mem_of_last {writes : List (Write κ ν)} {key : κ} {value : Option ν}
    (h : last writes key = some value) : (key, value) ∈ writes := by
  induction writes using List.reverseRecOn with
  | nil => simp at h
  | append_singleton a w ih =>
    rw [last_snoc] at h
    split at h
    · rename_i hkey
      obtain rfl := Option.some.inj h
      simp [← hkey]
    · exact List.mem_append_left _ (ih h)

theorem last_eq_none {writes : List (Write κ ν)} {key : κ} (h : ∀ value, (key, value) ∉ writes) :
    last writes key = none :=
  Option.eq_none_iff_forall_ne_some.mpr fun value hlast => h value (mem_of_last hlast)

theorem isSome_last_of_mem {writes : List (Write κ ν)} {w : Write κ ν} (h : w ∈ writes) :
    (last writes w.1).isSome = true := by
  induction writes using List.reverseRecOn with
  | nil => cases h
  | append_singleton a w' ih =>
    rw [last_snoc]
    split
    · rfl
    · rename_i hkey
      rcases List.mem_append.mp h with h | h
      · exact ih h
      · rw [List.mem_singleton.mp h] at hkey
        exact absurd rfl hkey

theorem last_eq_of_unique {writes : List (Write κ ν)} {key : κ} {value : Option ν}
    (h : (key, value) ∈ writes) (hunique : ∀ v, (key, v) ∈ writes → v = value) :
    last writes key = some value := by
  obtain ⟨v, hv⟩ := Option.isSome_iff_exists.mp (isSome_last_of_mem h)
  rw [hv, hunique v (mem_of_last hv)]

/-- Writes that a store already contains may be applied once more, together with later ones. -/
theorem apply_replay (store : κ → Option ν) (pre mid post : List (Write κ ν)) :
    apply (apply store (pre ++ mid)) (mid ++ post) = apply store (pre ++ mid ++ post) := by
  funext key
  simp only [apply_eq_last, last_append]
  cases last post key <;> cases last mid key <;> simp

end LastWrite
