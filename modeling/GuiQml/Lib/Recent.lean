import GuiQml.Lib.TailWindow
import Mathlib.Data.List.Destutter

/-!
# What was entered last

A history takes an entry that differs from its last one and keeps as many as it has room for. It is the end of
what was entered, without the repeats in a row.
-/

namespace Recent

variable {α : Type*} {room : Nat}

/-! ## The end of what was entered -/

theorem getLast?_rtake (hroom : 0 < room) (entries : List α) : (entries.rtake room).getLast? = entries.getLast? := by
  induction entries using List.reverseRecOn with
  | nil => simp
  | append_singleton entries entry _ =>
    rw [TailWindow.rtake_append_of_ge (by exact hroom), List.getLast?_concat, List.getLast?_concat]

theorem push_rtake (hroom : 0 < room) (entries : List α) (entry : α) :
    (if room < (entries.rtake room ++ [entry]).length then (entries.rtake room ++ [entry]).tail
      else entries.rtake room ++ [entry]) = (entries ++ [entry]).rtake room := by
  have hlength : (entries.rtake room ++ [entry]).length = min room entries.length + 1 := by
    rw [List.length_append, TailWindow.length_rtake, List.length_singleton]
  rw [hlength]
  rcases Nat.lt_or_ge entries.length room with hlt | hge
  · rw [if_neg (by omega), TailWindow.rtake_of_length_le hlt.le, TailWindow.rtake_of_length_le]
    rw [List.length_append, List.length_singleton]
    omega
  · have hne : entries.rtake room ≠ [] := by
      intro hnil
      have hzero := congrArg List.length hnil
      rw [TailWindow.length_rtake, List.length_nil] at hzero
      omega
    rw [if_pos (by omega), TailWindow.rtake_append_of_ge (by exact hroom), List.tail_append_of_ne_nil hne]
    congr 1
    simp only [List.rtake, List.tail_drop, List.length_singleton]
    congr 1
    omega

/-! ## Repeats in a row -/

variable [DecidableEq α]

theorem destutter'_concat (entries : List α) (a entry : α) :
    (entries ++ [entry]).destutter' (· ≠ ·) a =
      if (a :: entries).getLast? = some entry then entries.destutter' (· ≠ ·) a
      else entries.destutter' (· ≠ ·) a ++ [entry] := by
  induction entries generalizing a with
  | nil => by_cases h : a = entry <;> simp [List.destutter', h]
  | cons b entries ih =>
    have hlast : (a :: b :: entries).getLast? = (b :: entries).getLast? := List.getLast?_cons_cons
    rw [List.cons_append, List.destutter'_cons, List.destutter'_cons, hlast]
    by_cases h : a = b
    · subst h
      rw [if_neg (not_not.2 rfl), if_neg (not_not.2 rfl), ih]
    · rw [if_pos h, if_pos h, ih]
      split
      · rfl
      · rfl

theorem destutter_concat (entries : List α) (entry : α) :
    (entries ++ [entry]).destutter (· ≠ ·) =
      if entries.getLast? = some entry then entries.destutter (· ≠ ·)
      else entries.destutter (· ≠ ·) ++ [entry] := by
  cases entries with
  | nil => rfl
  | cons a entries => exact destutter'_concat entries a entry

theorem getLast?_destutter (entries : List α) : (entries.destutter (· ≠ ·)).getLast? = entries.getLast? := by
  induction entries using List.reverseRecOn with
  | nil => rfl
  | append_singleton entries entry ih =>
    rw [destutter_concat, List.getLast?_concat]
    split
    · rename_i h
      rw [ih, h]
    · exact List.getLast?_concat

/-! ## The history -/

def remember (room : Nat) (history : List α) (entry : α) : List α :=
  if history.getLast? = some entry then history
  else if room < (history ++ [entry]).length then (history ++ [entry]).tail
  else history ++ [entry]

/-- After any entries the history holds the last of them, without repeats in a row. -/
theorem foldl_remember (hroom : 0 < room) (entries : List α) :
    entries.foldl (remember room) [] = (entries.destutter (· ≠ ·)).rtake room := by
  induction entries using List.reverseRecOn with
  | nil => simp
  | append_singleton entries entry ih =>
    rw [List.foldl_concat, ih, destutter_concat, remember, getLast?_rtake hroom, getLast?_destutter]
    split
    · rfl
    · exact push_rtake hroom _ entry

end Recent
