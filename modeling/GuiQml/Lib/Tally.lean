import Mathlib.Algebra.BigOperators.Group.Finset.Basic
import Mathlib.Algebra.Order.BigOperators.Group.Finset
import Mathlib.Algebra.Order.Ring.Int

/-!
# Entries with running totals

A tally keeps under each key a list of amounts by label. For each label it also keeps the total of its
amounts and the keys that have one, as long as there are any. Entries come and go, and the rest of the
tally is updated label by label, never computed anew.
-/

/-! ## Label by label -/

section UpdateEach

variable {α ν μ : Type*} [DecidableEq α]

/-- Update a map at the label of each pair. -/
def updateEach (g : ν → μ → μ) (m : α → μ) (l : List (α × ν)) : α → μ :=
  l.foldl (fun m w => Function.update m w.1 (g w.2 (m w.1))) m

theorem updateEach_of_notMem {g : ν → μ → μ} {m : α → μ} {l : List (α × ν)} {a : α}
    (h : a ∉ l.map (·.1)) : updateEach g m l a = m a := by
  induction l generalizing m with
  | nil => rfl
  | cons w l ih =>
    rw [List.map_cons, List.mem_cons, not_or] at h
    exact (ih h.2).trans (Function.update_of_ne h.1 _ _)

theorem updateEach_of_mem {g : ν → μ → μ} {m : α → μ} {l : List (α × ν)} {a : α} {v : ν}
    (hl : (l.map (·.1)).Nodup) (h : (a, v) ∈ l) : updateEach g m l a = g v (m a) := by
  induction l generalizing m with
  | nil => cases h
  | cons w l ih =>
    rw [List.map_cons, List.nodup_cons] at hl
    rcases List.mem_cons.mp h with rfl | h
    · exact (updateEach_of_notMem hl.1).trans (Function.update_self _ _ _)
    · have hne : a ≠ w.1 := fun heq => hl.1 (heq ▸ List.mem_map_of_mem h)
      have hkeep : Function.update m w.1 (g w.2 (m w.1)) a = m a := Function.update_of_ne hne _ _
      exact (ih hl.2 h).trans (congrArg (g v) hkeep)

end UpdateEach

structure Tally (κ α : Type*) where
  entries : κ → Option (List (α × Int)) := fun _ => none
  totals : α → Option Int := fun _ => none
  index : α → Option (Finset κ) := fun _ => none

namespace Tally

variable {κ α : Type*} [DecidableEq κ] [DecidableEq α] {t t' : Tally κ α} {key : κ}
  {parts : List (α × Int)}

/-! ## Operations -/

def addTotal (amount : Int) (total : Option Int) : Option Int := some (total.getD 0 + amount)

def addKey (key : κ) (keys : Option (Finset κ)) : Option (Finset κ) :=
  some (Insert.insert key (keys.getD ∅))

/-- A new entry, under a key that has none. -/
def insert (t : Tally κ α) (key : κ) (parts : List (α × Int)) : Tally κ α where
  entries := Function.update t.entries key (some parts)
  totals := updateEach addTotal t.totals parts
  index := updateEach (fun _ => addKey key) t.index parts

/-- Dropped where it becomes zero. -/
def subTotal (amount : Int) (total : Option Int) : Option Int :=
  total.bind fun total => if total - amount = 0 then none else some (total - amount)

/-- Dropped where it becomes empty. -/
def dropKey (key : κ) (keys : Option (Finset κ)) : Option (Finset κ) :=
  keys.bind fun keys => if keys.erase key = ∅ then none else some (keys.erase key)

def erase (t : Tally κ α) (key : κ) : Tally κ α :=
  match t.entries key with
  | none => t
  | some parts =>
    { entries := Function.update t.entries key none
      totals := updateEach subTotal t.totals parts
      index := updateEach (fun _ => dropKey key) t.index parts }

/-! ## What the totals and the index are -/

/-- Each label once, with a positive amount. -/
structure Proper (parts : List (α × Int)) : Prop where
  nodup : (parts.map (·.1)).Nodup
  pos : ∀ w ∈ parts, 0 < w.2

/-- The amount of a label in an entry, zero if it has none. -/
def amount (t : Tally κ α) (a : α) (key : κ) : Int :=
  (((t.entries key).getD []).lookup a).getD 0

def Has (t : Tally κ α) (a : α) (key : κ) : Prop := a ∈ ((t.entries key).getD []).map (·.1)

/-- The totals and the index tell the entries. -/
structure WF (t : Tally κ α) : Prop where
  proper : ∀ key parts, t.entries key = some parts → Proper parts
  kept : ∀ a, ∃ keys : Finset κ, (∀ key, key ∈ keys ↔ t.Has a key) ∧
    t.index a = (if keys = ∅ then none else some keys) ∧
    t.totals a = if keys = ∅ then none else some (∑ key ∈ keys, t.amount a key)

theorem WF.empty : WF ({} : Tally κ α) where
  proper _ _ h := by cases h
  kept a := ⟨∅, by simp [Has], rfl, rfl⟩

theorem WF.ext (h : WF t) (h' : WF t') (hentries : t.entries = t'.entries) : t = t' := by
  obtain ⟨entries, totals, index⟩ := t
  obtain ⟨_, totals', index'⟩ := t'
  obtain rfl : entries = _ := hentries
  have hboth : ∀ a, totals a = totals' a ∧ index a = index' a := by
    intro a
    obtain ⟨keys, hmem, hindex, htotals⟩ := h.kept a
    obtain ⟨keys', hmem', hindex', htotals'⟩ := h'.kept a
    obtain rfl : keys = keys' := Finset.ext fun key => (hmem key).trans (hmem' key).symm
    exact ⟨htotals.trans htotals'.symm, hindex.trans hindex'.symm⟩
  rw [funext fun a => (hboth a).1, funext fun a => (hboth a).2]

theorem lookup_of_mem (hparts : Proper parts) {a : α} {v : Int} (h : (a, v) ∈ parts) :
    parts.lookup a = some v := by
  obtain ⟨hnodup, -⟩ := hparts
  induction parts with
  | nil => cases h
  | cons w parts ih =>
    rw [List.map_cons, List.nodup_cons] at hnodup
    rcases List.mem_cons.mp h with rfl | h
    · simp
    · have hne : a ≠ w.1 := fun heq => hnodup.1 (heq ▸ List.mem_map_of_mem h)
      rw [List.lookup_cons, beq_false_of_ne hne]
      exact ih h hnodup.2

theorem amount_pos (h : WF t) {a : α} (hkey : t.Has a key) : 0 < t.amount a key := by
  unfold Has at hkey
  unfold amount
  cases hentry : t.entries key with
  | none => simp [hentry] at hkey
  | some parts =>
    have hparts := h.proper key parts hentry
    rw [hentry, Option.getD_some] at hkey
    obtain ⟨w, hw, rfl⟩ := List.mem_map.mp hkey
    rw [Option.getD_some, lookup_of_mem hparts hw]
    exact hparts.pos w hw

omit [DecidableEq κ] in
theorem amount_eq_zero {a : α} (hkey : ¬ t.Has a key) : t.amount a key = 0 := by
  unfold Has at hkey
  unfold amount
  have hnone : ((t.entries key).getD []).lookup a = none := by
    simp only [List.lookup_eq_none_iff, bne_iff_ne]
    intro part hpart heq
    exact hkey (heq ▸ List.mem_map_of_mem hpart)
  rw [hnone, Option.getD_none]

/-! ## Entries that come and go -/

section Update

variable {entry : Option (List (α × Int))} {a : α} {other : κ}

omit [DecidableEq α] in
theorem has_update (h : t'.entries = Function.update t.entries key entry) :
    t'.Has a other ↔ if other = key then a ∈ (entry.getD []).map (·.1) else t.Has a other := by
  unfold Has
  rw [h, Function.update_apply]
  split <;> rfl

theorem amount_update_of_ne (h : t'.entries = Function.update t.entries key entry)
    (hne : other ≠ key) : t'.amount a other = t.amount a other := by
  unfold amount
  rw [h, Function.update_of_ne hne]

theorem sum_update (h : t'.entries = Function.update t.entries key entry) {keys : Finset κ}
    (hkey : key ∉ keys) : ∑ other ∈ keys, t'.amount a other = ∑ other ∈ keys, t.amount a other :=
  Finset.sum_congr rfl fun _ hother => amount_update_of_ne h fun heq => hkey (heq ▸ hother)

end Update

@[simp] theorem entries_insert :
    (t.insert key parts).entries = Function.update t.entries key (some parts) := rfl

@[simp] theorem entries_erase : (t.erase key).entries = Function.update t.entries key none := by
  unfold erase
  split
  · rename_i hnone
    rw [← hnone, Function.update_eq_self]
  · rfl

theorem index_erase (h : t.entries key = some parts) :
    (t.erase key).index = updateEach (fun _ => dropKey key) t.index parts := by
  unfold erase
  rw [h]

theorem totals_erase (h : t.entries key = some parts) :
    (t.erase key).totals = updateEach subTotal t.totals parts := by
  unfold erase
  rw [h]

omit [DecidableEq κ] in
theorem amount_of_mem {a : α} {v : Int} (hentry : t.entries key = some parts) (hparts : Proper parts)
    (hv : (a, v) ∈ parts) : t.amount a key = v := by
  unfold amount
  rw [hentry, Option.getD_some, lookup_of_mem hparts hv, Option.getD_some]

theorem WF.insert (h : WF t) (hkey : t.entries key = none) (hparts : Proper parts) :
    WF (t.insert key parts) where
  proper other parts' hentry := by
    rw [entries_insert, Function.update_apply] at hentry
    split at hentry
    · exact Option.some.inj hentry ▸ hparts
    · exact h.proper other parts' hentry
  kept a := by
    have hentries : (t.insert key parts).entries = Function.update t.entries key (some parts) := rfl
    obtain ⟨keys, hmem, hindex, htotals⟩ := h.kept a
    have hnot : key ∉ keys := fun hin => by
      have := (hmem key).mp hin
      simp [Has, hkey] at this
    have hsum := sum_update (a := a) hentries hnot
    by_cases ha : a ∈ parts.map (·.1)
    · obtain ⟨⟨b, v⟩, hv, hb⟩ := List.mem_map.mp ha
      obtain rfl : b = a := hb
      have hamount : (t.insert key parts).amount b key = v :=
        amount_of_mem (by rw [hentries, Function.update_self]) hparts hv
      refine ⟨Insert.insert key keys, fun other => ?_, ?_, ?_⟩
      · rw [Finset.mem_insert, has_update hentries, hmem]
        split <;> simp_all
      · have hold : (t.index b).getD ∅ = keys := by
          rw [hindex]
          split <;> simp_all
        rw [if_neg (Finset.insert_ne_empty key keys)]
        unfold Tally.insert
        dsimp only
        rw [updateEach_of_mem hparts.nodup hv, addKey, hold]
      · have hold : (t.totals b).getD 0 = ∑ other ∈ keys, t.amount b other := by
          rw [htotals]
          split <;> simp_all
        rw [if_neg (Finset.insert_ne_empty key keys), Finset.sum_insert hnot, hamount, hsum]
        unfold Tally.insert
        dsimp only
        rw [updateEach_of_mem hparts.nodup hv, addTotal, hold, add_comm]
    · refine ⟨keys, fun other => ?_, ?_, ?_⟩
      · rw [has_update hentries, hmem]
        split
        · rename_i heq
          subst heq
          exact iff_of_false (fun hin => hnot ((hmem _).mpr hin)) ha
        · rfl
      · unfold Tally.insert
        dsimp only
        rw [updateEach_of_notMem ha, hindex]
      · rw [hsum]
        unfold Tally.insert
        dsimp only
        rw [updateEach_of_notMem ha, htotals]

theorem WF.sum_eq_zero_iff (h : WF t) {a : α} {keys : Finset κ} (hkeys : ∀ key ∈ keys, t.Has a key) :
    ∑ key ∈ keys, t.amount a key = 0 ↔ keys = ∅ := by
  constructor
  · intro hzero
    by_contra hne
    have hpos := Finset.sum_pos (fun key hkey => amount_pos h (hkeys key hkey))
      (Finset.nonempty_iff_ne_empty.mpr hne)
    omega
  · rintro rfl
    rfl

theorem WF.erase (h : WF t) : WF (t.erase key) where
  proper other parts hentry := by
    rw [entries_erase, Function.update_apply] at hentry
    split at hentry
    · cases hentry
    · exact h.proper other parts hentry
  kept a := by
    have hentries : (t.erase key).entries = Function.update t.entries key none := entries_erase
    obtain ⟨keys, hmem, hindex, htotals⟩ := h.kept a
    cases hentry : t.entries key with
    | none =>
      have hsame : t.erase key = t := by
        unfold Tally.erase
        rw [hentry]
      rw [hsame]
      exact ⟨keys, hmem, hindex, htotals⟩
    | some parts =>
      have hparts := h.proper key parts hentry
      have hrest := sum_update (a := a) hentries (Finset.notMem_erase key keys)
      refine ⟨keys.erase key, fun other => ?_, ?_⟩
      · rw [Finset.mem_erase, has_update hentries, hmem]
        split <;> simp_all
      by_cases ha : a ∈ parts.map (·.1)
      · have hkey : key ∈ keys := (hmem key).mpr (by simpa [Has, hentry] using ha)
        have hne : keys ≠ ∅ := Finset.ne_empty_of_mem hkey
        obtain ⟨⟨b, v⟩, hv, hb⟩ := List.mem_map.mp ha
        obtain rfl : b = a := hb
        have hsub : (∑ other ∈ keys, t.amount b other) - v =
            ∑ other ∈ keys.erase key, t.amount b other := by
          rw [← Finset.add_sum_erase keys _ hkey, amount_of_mem hentry hparts hv]
          omega
        have hzero : (∑ other ∈ keys.erase key, t.amount b other) = 0 ↔ keys.erase key = ∅ :=
          h.sum_eq_zero_iff fun other hother => (hmem other).mp (Finset.mem_of_mem_erase hother)
        rw [index_erase hentry, totals_erase hentry, updateEach_of_mem hparts.nodup hv,
          updateEach_of_mem hparts.nodup hv, hindex, htotals, if_neg hne, if_neg hne, hrest]
        refine ⟨rfl, ?_⟩
        unfold subTotal
        rw [Option.bind_some, hsub]
        simp only [hzero]
      · have hnot : key ∉ keys := fun hin => ha (by simpa [Has, hentry] using (hmem key).mp hin)
        rw [Finset.erase_eq_of_notMem hnot] at hrest ⊢
        rw [index_erase hentry, totals_erase hentry, updateEach_of_notMem ha, updateEach_of_notMem ha,
          hrest]
        exact ⟨hindex, htotals⟩

end Tally
