import Mathlib.Data.List.Nodup

/-!
# Lists with keys

The entries of a list are told apart by a key.
-/

variable {α κ : Type*} {key : α → κ} {l : List α} {a b : α} {k : κ}

def Keyed (key : α → κ) (l : List α) : Prop := (l.map key).Nodup

namespace Keyed

theorem nil : Keyed key [] := List.nodup_nil

theorem nodup (h : Keyed key l) : l.Nodup := List.Nodup.of_map key h

theorem inj (h : Keyed key l) (ha : a ∈ l) (hb : b ∈ l) (hkey : key a = key b) : a = b :=
  List.inj_on_of_nodup_map h ha hb hkey

theorem cons (h : Keyed key l) (hnew : key a ∉ l.map key) : Keyed key (a :: l) := List.nodup_cons.2 ⟨hnew, h⟩

theorem snoc (h : Keyed key l) (hnew : key a ∉ l.map key) : Keyed key (l ++ [a]) := by
  unfold Keyed
  rw [List.map_append, List.map_singleton]
  exact List.nodup_append.2 ⟨h, List.nodup_singleton _, fun k hk k' hk' heq => by
    rw [List.mem_singleton.1 hk'] at heq
    exact hnew (heq ▸ hk)⟩

theorem sublist {l' : List α} (h : Keyed key l) (hsub : l'.Sublist l) : Keyed key l' :=
  List.Nodup.sublist (hsub.map key) h

section erase

variable [DecidableEq α]

theorem erase (h : Keyed key l) : Keyed key (l.erase a) := h.sublist List.erase_sublist

theorem mem_erase (h : Keyed key l) : b ∈ l.erase a ↔ b ≠ a ∧ b ∈ l := h.nodup.mem_erase_iff

theorem mem_map_erase (h : Keyed key l) (ha : a ∈ l) : k ∈ (l.erase a).map key ↔ k ≠ key a ∧ k ∈ l.map key := by
  simp only [List.mem_map, h.mem_erase]
  constructor
  · rintro ⟨b, ⟨hne, hb⟩, rfl⟩
    exact ⟨fun hkey => hne (h.inj hb ha hkey), b, hb, rfl⟩
  · rintro ⟨hne, b, hb, rfl⟩
    exact ⟨b, ⟨fun heq => hne (congrArg key heq), hb⟩, rfl⟩

end erase

variable [DecidableEq κ]

theorem of_find? (hfind : l.find? (fun b => key b = k) = some a) : a ∈ l ∧ key a = k :=
  ⟨List.mem_of_find?_eq_some hfind, by simpa using List.find?_some hfind⟩

theorem find?_eq_none : l.find? (fun b => key b = k) = none ↔ k ∉ l.map key := by
  simp [List.find?_eq_none]

end Keyed
