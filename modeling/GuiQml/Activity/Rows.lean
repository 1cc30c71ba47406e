import GuiQml.Lib.Rows
import Mathlib.Data.List.DropRight
import Mathlib.Order.Compare
import Mathlib.Order.Lattice
import Std.Data.ExtTreeMap

/-!
# The rows of the activity

The end of `TransactionActivityModel::rebuildRows`, where the old rows become the new ones without a reset.
One pass goes along the old rows and the new map. Values are equal where `QVariant` compares them equal.
-/

namespace GuiQml.Activity.Rows

open GuiQml.Rows

def UserRole : Int := 0x0100

def IsPendingRequestRole : Int := UserRole + 12

def IdRole : Int := UserRole + 100

/-- What the code asks of a `QVariant`. -/
structure Variants (Value Key : Type) where
  invalid : Value
  toString : Value → Key
  toBool : Value → Bool

abbrev Row (Value : Type) := Std.ExtTreeMap Int Value

/-- The new rows by id. -/
abbrev RowMap (Key Value : Type) [LinearOrder Key] := Std.ExtTreeMap Key (Row Value)

structure Merge (Value : Type) where
  /-- `m_rows`, with what the views are told. -/
  model : RowModel (Row Value) Int
  i : Nat := 0
  /-- `first_changed` and `last_changed`, unless they are -1. -/
  changed : Option (Nat × Nat) := none
  changed_roles : List Int := []

def appendRole (changed_roles : List Int) (role : Int) : List Int :=
  if role ∈ changed_roles then changed_roles else changed_roles ++ [role]

namespace Merge

variable {Value : Type} (s : Merge Value)

def flush_changes : Merge Value :=
  match s.changed with
  | none => s
  | some (first_changed, last_changed) =>
    { s with
      model := s.model.dataChanged first_changed last_changed s.changed_roles
      changed := none
      changed_roles := [] }

def finish : Merge Value :=
  let s := s.flush_changes
  if s.i < s.model.rows.length then { s with model := s.model.removeRows s.i s.model.rows.length } else s

end Merge

namespace Variants

variable {Key Value : Type} (v : Variants Value Key)

/-- What a view reads. -/
def data (row : Row Value) (role : Int) : Value := row.getD role v.invalid

def id (row : Row Value) : Key := v.toString (v.data row IdRole)

variable [LinearOrder Key] [DecidableEq Value]

/-- The rows whose ids come before the next new one go. -/
def removeBefore (s : Merge Value) (key : Key) : Merge Value :=
  let remove_end := s.i + ((s.model.rows.drop s.i).takeWhile fun row => v.id row < key).length
  if s.i < remove_end then
    let s := s.flush_changes
    { s with model := s.model.removeRows s.i remove_end }
  else s

/-- A new row comes before the next old one, if there is one. -/
def comesBefore (next : Option (Row Value)) (entry : Key × Row Value) : Bool :=
  match next with
  | none => true
  | some row => entry.1 < v.id row

/-- All new rows up to the id of the next old one come at once. -/
def insertBatch (s : Merge Value) (it : List (Key × Row Value)) : Merge Value × List (Key × Row Value) :=
  let s := s.flush_changes
  let added := it.takeWhile (v.comesBefore s.model.rows[s.i]?)
  ({ s with
      model := s.model.insertRows s.i (added.map (·.2))
      i := s.i + added.length },
    it.drop added.length)

/-- The roles that differ, and those that the new row does not have. -/
def changedRoles (old new : Row Value) (changed_roles : List Int) : List Int :=
  let changed_roles := new.toList.foldl
    (fun roles role => if v.data old role.1 ≠ role.2 then appendRole roles role.1 else roles) changed_roles
  old.toList.foldl
    (fun roles role => if !new.contains role.1 then appendRole roles role.1 else roles) changed_roles

/-- The view is told later. -/
def changeRow (s : Merge Value) (old new : Row Value) : Merge Value :=
  if old = new then s
  else
    { s with
      model := s.model.setRow s.i new
      changed_roles := v.changedRoles old new s.changed_roles
      changed := some ((s.changed.map (·.1)).getD s.i, s.i) }

/-- The loop over the new map. Each turn takes at least one of its rows. -/
def merge : Nat → Merge Value → List (Key × Row Value) → Option (Merge Value)
  | _, s, [] => some s
  | 0, _, _ :: _ => none
  | turns + 1, s, (key, row) :: it =>
    let s := v.removeBefore s key
    match s.model.rows[s.i]?.filter fun old => v.id old = key with
    | none =>
      let (s, it) := v.insertBatch s ((key, row) :: it)
      merge turns s it
    | some old =>
      merge turns { v.changeRow s old row with i := s.i + 1 } it

/-- The new rows with what the views are told, and whether `countChanged` is emitted. -/
def reconcile (transaction_count : Nat) (m_rows : List (Row Value)) (rows : RowMap Key Value) :
    Option (RowModel (Row Value) Int × Bool) :=
  let old_requests := m_rows.countP fun row => v.toBool (v.data row IsPendingRequestRole)
  (v.merge rows.toList.length { model := { rows := m_rows } } rows.toList).map fun s =>
    let model := s.finish.model
    (model, m_rows.length ≠ model.rows.length ||
      (old_requests : Int) ≠ model.rows.length - transaction_count)

end Variants

/-! ## Changed roles -/

variable {Key Value : Type} {v : Variants Value Key}

theorem mem_appendRole {roles : List Int} {role role' : Int} :
    role ∈ appendRole roles role' ↔ role ∈ roles ∨ role = role' := by
  unfold appendRole
  split
  · rename_i hmem
    constructor
    · exact Or.inl
    · rintro (h | rfl)
      · exact h
      · exact hmem
  · simp

theorem mem_foldl_appendRole {p : Int × Value → Prop} [DecidablePred p] (entries : List (Int × Value))
    (roles : List Int) (role : Int) :
    role ∈ entries.foldl (fun roles entry => if p entry then appendRole roles entry.1 else roles) roles ↔
      role ∈ roles ∨ ∃ entry ∈ entries, p entry ∧ role = entry.1 := by
  induction entries generalizing roles with
  | nil => simp
  | cons entry entries ih =>
    rw [List.foldl_cons, ih]
    split
    · rename_i hp
      simp [mem_appendRole, hp, or_assoc]
    · rename_i hp
      simp [hp]

namespace Variants

theorem data_eq_of_getElem? {row : Row Value} {role : Int} {value : Value} (h : row[role]? = some value) :
    v.data row role = value := by
  unfold data
  rw [Std.ExtTreeMap.getD_eq_getD_getElem?, h, Option.getD_some]

variable [DecidableEq Value]

theorem mem_changedRoles_of_mem {old new : Row Value} {roles : List Int} {role : Int} (h : role ∈ roles) :
    role ∈ v.changedRoles old new roles := by
  unfold changedRoles
  dsimp only
  rw [mem_foldl_appendRole, mem_foldl_appendRole]
  exact .inl (.inl h)

theorem data_eq_of_not_mem {old new : Row Value} {roles : List Int} {role : Int}
    (h : role ∉ v.changedRoles old new roles) : v.data new role = v.data old role := by
  unfold changedRoles at h
  dsimp only at h
  rw [mem_foldl_appendRole, mem_foldl_appendRole] at h
  push Not at h
  obtain ⟨⟨-, hnew⟩, hold⟩ := h
  cases hvalue : new[role]? with
  | some value =>
    rw [data_eq_of_getElem? hvalue]
    have hentry := Std.ExtTreeMap.mem_toList_iff_getElem?_eq_some.mpr hvalue
    by_contra hne
    exact hnew _ hentry (fun heq => hne heq.symm) rfl
  | none =>
    -- A role that only the old row had would be named.
    have hgone : old[role]? = none := by
      by_contra hsome
      obtain ⟨value, hvalue'⟩ := Option.ne_none_iff_exists'.mp hsome
      have hentry := Std.ExtTreeMap.mem_toList_iff_getElem?_eq_some.mpr hvalue'
      refine hold _ hentry ?_ rfl
      simp [Std.ExtTreeMap.contains_eq_isSome_getElem?, hvalue]
    unfold data
    rw [Std.ExtTreeMap.getD_eq_getD_getElem?, Std.ExtTreeMap.getD_eq_getD_getElem?, hvalue, hgone]

end Variants

/-! ## What the views do not know yet -/

namespace Merge

variable {s : Merge Value} {m_rows : List (Row Value)}

@[simp] theorem flush_changes_rows (s : Merge Value) : s.flush_changes.model.rows = s.model.rows := by
  unfold flush_changes
  split <;> rfl

@[simp] theorem flush_changes_i (s : Merge Value) : s.flush_changes.i = s.i := by
  unfold flush_changes
  split <;> rfl

/-- The roles that changed in the range that is not announced yet. -/
def Stale (s : Merge Value) (i : Nat) (role : Int) : Prop :=
  ∃ first last, s.changed = some (first, last) ∧ first ≤ i ∧ i ≤ last ∧ role ∈ s.changed_roles

/-- The views miss only what is still to be announced. -/
structure Delays (v : Variants Value Key) (m_rows : List (Row Value)) (s : Merge Value) : Prop where
  keeps : Keeps (View.ofData v.data) (Behind v.data s.Stale) { rows := m_rows } s.model
  i_le : s.i ≤ s.model.rows.length
  passed : ∀ first last, s.changed = some (first, last) → first ≤ last ∧ last < s.i

/-- Nothing is left to announce. -/
structure Flushed (v : Variants Value Key) (m_rows : List (Row Value)) (s : Merge Value) : Prop where
  follows : Follows (View.ofData v.data) { rows := m_rows } s.model
  changed : s.changed = none

theorem Flushed.delays (h : Flushed v m_rows s) (hi : s.i ≤ s.model.rows.length) : Delays v m_rows s where
  keeps := h.follows.mono fun shown hshown => by
    rw [hshown]
    exact behind_refl s.model.rows
  i_le := hi
  passed first last hchanged := by
    rw [h.changed] at hchanged
    cases hchanged

theorem Delays.flush (h : Delays v m_rows s) : Flushed v m_rows s.flush_changes := by
  unfold flush_changes
  split
  · rename_i hnone
    refine ⟨h.keeps.mono fun shown hshown => ?_, hnone⟩
    apply hshown.eq
    rintro i role ⟨first, last, hsome, -⟩
    rw [hnone] at hsome
    cases hsome
  · rename_i first last hsome
    obtain ⟨hle, hlast⟩ := h.passed first last hsome
    refine ⟨?_, rfl⟩
    apply h.keeps.tell
    · exact ⟨hle, hlast.trans_le h.i_le⟩
    · intro shown hshown
      apply Behind.changed
      apply hshown.mono
      rintro i role ⟨first', last', hsome', hstale⟩
      rw [hsome] at hsome'
      cases hsome'
      exact hstale

/-- The row at the cursor changes, and so far only the model knows. -/
theorem Delays.changeRow [LinearOrder Key] [DecidableEq Value] (h : Delays v m_rows s) {old : Row Value}
    (new : Row Value) (hold : s.model.rows[s.i]? = some old) :
    Delays v m_rows { v.changeRow s old new with i := s.i + 1 } := by
  have hi : s.i < s.model.rows.length := (List.getElem?_eq_some_iff.mp hold).1
  unfold Variants.changeRow
  split
  · refine ⟨h.keeps, hi, fun first last hchanged => ?_⟩
    obtain ⟨hle, hlast⟩ := h.passed first last hchanged
    exact ⟨hle, hlast.trans (Nat.lt_succ_self _)⟩
  -- The range is extended up to the cursor.
  have hfirst : (s.changed.map (·.1)).getD s.i ≤ s.i := by
    rcases hchanged : s.changed with _ | ⟨first, last⟩
    · exact le_rfl
    · obtain ⟨hle, hlast⟩ := h.passed first last hchanged
      exact hle.trans hlast.le
  refine ⟨?_, ?_, ?_⟩
  · apply h.keeps.setRow
    intro shown hshown
    apply hshown.set
    · rintro j role ⟨first, last, hchanged, hj, hlast, hrole⟩
      have hpassed := (h.passed first last hchanged).2
      exact ⟨first, s.i, by simp [hchanged], hj, by omega, Variants.mem_changedRoles_of_mem hrole⟩
    · intro old' role hold' hfresh
      obtain rfl := Option.some.inj (hold'.symm.trans hold)
      apply Variants.data_eq_of_not_mem
      intro hrole
      exact hfresh ⟨_, s.i, rfl, hfirst, le_rfl, hrole⟩
  · rw [RowModel.setRow_rows, List.length_set]
    exact hi
  · intro first last hchanged
    cases hchanged
    exact ⟨hfirst, Nat.lt_succ_self _⟩

end Merge

/-! ## The pass over the rows -/

section Pass

variable [LinearOrder Key] {m_rows : List (Row Value)} {rows : RowMap Key Value} {s : Merge Value}
  {done it : List (Key × Row Value)} {gone rest : List (Row Value)} {key : Key} {row : Row Value}

/-- No row goes that has a new one, and none comes that had an old one. -/
structure KeepsCommon (v : Variants Value Key) (m_rows : List (Row Value)) (rows : RowMap Key Value)
    (n : Notice (Row Value) Int) : Prop where
  removed : ∀ row ∈ n.removedRows, v.id row ∉ rows
  inserted : ∀ row ∈ n.insertedRows, v.id row ∉ m_rows.map v.id

/-- Before the cursor stand the new rows that are `done`, and from there on the `rest` of the old ones. -/
structure Pass (v : Variants Value Key) (m_rows : List (Row Value)) (rows : RowMap Key Value) (s : Merge Value)
    (done it : List (Key × Row Value)) (gone rest : List (Row Value)) : Prop where
  new_rows : rows.toList = done ++ it
  old_rows : m_rows = gone ++ rest
  model : s.model.rows = done.map (·.2) ++ rest
  i : s.i = done.length
  behind : ∀ row ∈ gone, ∀ entry ∈ it, v.id row < entry.1
  ahead : ∀ row ∈ rest, ∀ entry ∈ done, entry.1 < v.id row
  common : ∀ n ∈ s.model.notices, KeepsCommon v m_rows rows n

/-- The rows are told apart and ordered by their ids. -/
def Sorted (v : Variants Value Key) (m_rows : List (Row Value)) : Prop :=
  m_rows.Pairwise fun row row' => v.id row < v.id row'

/-- Every row stands under its own id. -/
def ById (v : Variants Value Key) (rows : RowMap Key Value) : Prop :=
  ∀ key row, rows[key]? = some row → v.id row = key

structure Ordered (v : Variants Value Key) (m_rows : List (Row Value)) (rows : RowMap Key Value) : Prop where
  old : Sorted v m_rows
  new : ById v rows

theorem pairwise_toList (rows : RowMap Key Value) :
    rows.toList.Pairwise fun entry entry' => entry.1 < entry'.1 := by
  apply Std.ExtTreeMap.ordered_keys_toList.imp
  intro entry entry' h
  exact compare_lt_iff_lt.mp h

theorem sorted_toList (hnew : ById v rows) : Sorted v (rows.toList.map (·.2)) := by
  unfold Sorted
  rw [List.pairwise_map]
  apply (pairwise_toList rows).imp_of_mem
  intro entry entry' hentry hentry' hlt
  have hid := hnew _ _ (Std.ExtTreeMap.mem_toList_iff_getElem?_eq_some.mp hentry)
  have hid' := hnew _ _ (Std.ExtTreeMap.mem_toList_iff_getElem?_eq_some.mp hentry')
  rwa [hid, hid']

theorem Pass.start (v : Variants Value Key) (m_rows : List (Row Value)) (rows : RowMap Key Value) :
    Pass v m_rows rows { model := { rows := m_rows } } [] rows.toList [] m_rows where
  new_rows := rfl
  old_rows := rfl
  model := rfl
  i := rfl
  behind := by simp
  ahead := by simp
  common := by simp

theorem Pass.rows_drop (h : Pass v m_rows rows s done it gone rest) : s.model.rows.drop s.i = rest := by
  rw [h.model, h.i]
  exact List.drop_left' (by simp)

theorem Pass.rows_take (h : Pass v m_rows rows s done it gone rest) :
    s.model.rows.take s.i = done.map (·.2) := by
  rw [h.model, h.i]
  exact List.take_left' (by simp)

theorem Pass.cursor (h : Pass v m_rows rows s done it gone rest) : s.model.rows[s.i]? = rest.head? := by
  rw [← h.rows_drop, List.head?_drop]

theorem Pass.i_le (h : Pass v m_rows rows s done it gone rest) : s.i ≤ s.model.rows.length := by
  rw [h.model, h.i]
  simp

theorem Pass.flush (h : Pass v m_rows rows s done it gone rest) :
    Pass v m_rows rows s.flush_changes done it gone rest := by
  refine ⟨h.new_rows, h.old_rows, by simp [h.model], by simp [h.i], h.behind, h.ahead, ?_⟩
  unfold Merge.flush_changes
  split
  · exact h.common
  · apply s.model.forall_tell h.common
    constructor <;> intro row hrow <;> cases hrow

theorem Pass.id_not_mem {r : Row Value} (h : Pass v m_rows rows s done it gone rest) (hr : r ∈ rest)
    (hnext : ∀ entry ∈ it, v.id r < entry.1) : v.id r ∉ rows := by
  intro hmem
  obtain ⟨new, hnew⟩ := Std.ExtTreeMap.mem_iff_isSome_getElem?.mp hmem |> Option.isSome_iff_exists.mp
  have hentry := Std.ExtTreeMap.mem_toList_iff_getElem?_eq_some.mpr hnew
  rw [h.new_rows, List.mem_append] at hentry
  rcases hentry with hdone | hit
  · exact lt_irrefl _ (h.ahead r hr _ hdone)
  · exact lt_irrefl _ (hnext _ hit)

theorem Pass.key_lt (h : Pass v m_rows rows s done ((key, row) :: it) gone rest) :
    ∀ entry ∈ it, key < entry.1 := by
  have hsorted := pairwise_toList rows
  rw [h.new_rows] at hsorted
  exact (List.pairwise_cons.mp (List.pairwise_append.mp hsorted).2.1).1

theorem Pass.removeRows {front : List (Row Value)} {stop : Nat}
    (h : Pass v m_rows rows s done it gone (front ++ rest)) (hne : front ≠ [])
    (hfront : ∀ r ∈ front, ∀ entry ∈ it, v.id r < entry.1) (hstop : stop = s.i + front.length) :
    Pass v m_rows rows { s with model := s.model.removeRows s.i stop } done it (gone ++ front) rest where
  new_rows := h.new_rows
  old_rows := by rw [h.old_rows, List.append_assoc]
  model := by
    rw [RowModel.removeRows_rows, h.rows_take, hstop, ← List.drop_drop, h.rows_drop, List.drop_left]
  i := h.i
  behind r hr := (List.mem_append.mp hr).elim (h.behind r) (hfront r)
  ahead r hr := h.ahead r (List.mem_append_right _ hr)
  common := by
    apply s.model.forall_tell h.common
    have hlast : stop - 1 + 1 = s.i + front.length := by
      have := List.length_pos_iff.mpr hne
      omega
    refine ⟨fun r hr => ?_, fun r hr => by cases hr⟩
    have hmem : r ∈ front := by
      simpa [Notice.removedRows, hlast, Lines.slice, List.drop_take, h.rows_drop] using hr
    exact h.id_not_mem (List.mem_append_left _ hmem) (hfront r hmem)

theorem Pass.removeBefore (h : Pass v m_rows rows s done ((key, row) :: it) gone rest)
    (hdelays : s.Delays v m_rows) :
    ∃ front rest', rest = front ++ rest' ∧ (∀ r ∈ rest'.head?, ¬ v.id r < key) ∧
      Pass v m_rows rows (v.removeBefore s key) done ((key, row) :: it) (gone ++ front) rest' ∧
      (v.removeBefore s key).Delays v m_rows := by
  let front := rest.takeWhile fun r => v.id r < key
  let rest' := rest.dropWhile fun r => v.id r < key
  have hsplit : rest = front ++ rest' := (List.takeWhile_append_dropWhile ..).symm
  have hfront : ∀ r ∈ front, ∀ entry ∈ (key, row) :: it, v.id r < entry.1 := by
    intro r hr entry hentry
    have hlt : v.id r < key := by simpa using List.mem_takeWhile_imp hr
    rcases List.mem_cons.mp hentry with rfl | hit
    · exact hlt
    · exact hlt.trans (h.key_lt entry hit)
  have hhead : ∀ r ∈ rest'.head?, ¬ v.id r < key := by
    intro r hr
    have hnot := List.head?_dropWhile_not (fun r => v.id r < key) rest
    rw [Option.mem_def.mp hr] at hnot
    simpa using hnot
  rw [hsplit] at h
  refine ⟨front, rest', hsplit, hhead, ?_⟩
  unfold Variants.removeBefore
  rw [h.rows_drop, ← hsplit]
  dsimp only
  split
  · rename_i hsome
    have hne : front ≠ [] := List.length_pos_iff.mp (by dsimp only [front]; omega)
    have hflushed := hdelays.flush
    have hpass := h.flush.removeRows hne hfront (by rw [Merge.flush_changes_i])
    refine ⟨hpass, Merge.Flushed.delays ⟨?_, hflushed.changed⟩ hpass.i_le⟩
    apply hflushed.follows.removeRows
    · rwa [Merge.flush_changes_i]
    · rw [Merge.flush_changes_rows, h.model, h.i, List.length_append, List.length_append, List.length_map]
      dsimp only [front]
      omega
  · rename_i hnone
    have hempty : front = [] := List.length_eq_zero_iff.mp (by dsimp only [front]; omega)
    rw [hempty, List.nil_append] at h
    rw [hempty, List.append_nil]
    exact ⟨h, hdelays⟩

theorem Pass.lt_of_comesBefore (hordered : Ordered v m_rows rows) (h : Pass v m_rows rows s done it gone rest)
    {entry : Key × Row Value} (hbefore : v.comesBefore rest.head? entry = true) :
    ∀ r ∈ rest, entry.1 < v.id r := by
  have hsorted := hordered.old
  rw [h.old_rows] at hsorted
  replace hsorted := (List.pairwise_append.mp hsorted).2.1
  intro r hr
  match rest, hsorted, hbefore with
  | next :: rest, hsorted, hbefore =>
    have hlt : entry.1 < v.id next := by simpa [Variants.comesBefore] using hbefore
    rcases List.mem_cons.mp hr with rfl | hmem
    · exact hlt
    · exact hlt.trans ((List.pairwise_cons.mp hsorted).1 r hmem)

theorem Pass.id_fresh (hordered : Ordered v m_rows rows) (h : Pass v m_rows rows s done it gone rest)
    {entry : Key × Row Value} (hentry : entry ∈ it) (hnext : ∀ r ∈ rest, entry.1 < v.id r) :
    v.id entry.2 ∉ m_rows.map v.id := by
  have hid : v.id entry.2 = entry.1 := by
    apply hordered.new
    rw [← Std.ExtTreeMap.mem_toList_iff_getElem?_eq_some, h.new_rows]
    exact List.mem_append_right _ hentry
  intro hmem
  obtain ⟨r, hr, heq⟩ := List.mem_map.mp hmem
  rw [h.old_rows, List.mem_append] at hr
  rw [hid] at heq
  rcases hr with hgone | hrest
  · exact (h.behind r hgone entry hentry).ne heq
  · exact (hnext r hrest).ne' heq

theorem Pass.insertRows {added : List (Key × Row Value)} (hordered : Ordered v m_rows rows)
    (h : Pass v m_rows rows s done (added ++ it) gone rest) (hne : added ≠ [])
    (hadded : ∀ entry ∈ added, ∀ r ∈ rest, entry.1 < v.id r) :
    Pass v m_rows rows
      { s with model := s.model.insertRows s.i (added.map (·.2)), i := s.i + added.length }
      (done ++ added) it gone rest where
  new_rows := by rw [h.new_rows, List.append_assoc]
  old_rows := h.old_rows
  model := by rw [RowModel.insertRows_rows, h.rows_take, h.rows_drop, List.map_append]
  i := by rw [List.length_append, h.i]
  behind r hr entry hentry := h.behind r hr entry (List.mem_append_right _ hentry)
  ahead r hr entry hentry :=
    (List.mem_append.mp hentry).elim (h.ahead r hr entry) fun hmem => hadded entry hmem r hr
  common := by
    apply s.model.forall_tell h.common
    have hlast : s.i + (added.map (·.2)).length - 1 + 1 = s.i + (added.map (·.2)).length := by
      have := List.length_pos_iff.mpr hne
      rw [List.length_map]
      omega
    constructor
    · intro r hr
      cases hr
    · intro r hr
      dsimp only [Notice.insertedRows] at hr
      rw [hlast, slice_inserted _ _ h.i_le] at hr
      obtain ⟨entry, hentry, rfl⟩ := List.mem_map.mp hr
      exact h.id_fresh hordered (List.mem_append_left _ hentry) (hadded entry hentry)

theorem Pass.insertBatch (hordered : Ordered v m_rows rows) (hdelays : s.Delays v m_rows)
    (h : Pass v m_rows rows s done ((key, row) :: it) gone rest) (hnext : ∀ r ∈ rest.head?, key < v.id r) :
    ∃ added, added ≠ [] ∧ (key, row) :: it = added ++ (v.insertBatch s ((key, row) :: it)).2 ∧
      Pass v m_rows rows (v.insertBatch s ((key, row) :: it)).1 (done ++ added)
        (v.insertBatch s ((key, row) :: it)).2 gone rest ∧
      (v.insertBatch s ((key, row) :: it)).1.Delays v m_rows := by
  let added := ((key, row) :: it).takeWhile (v.comesBefore rest.head?)
  let left := ((key, row) :: it).drop added.length
  have hsplit : (key, row) :: it = added ++ left := (List.prefix_iff_eq_append.mp (List.takeWhile_prefix _)).symm
  have hbatch : v.insertBatch s ((key, row) :: it) =
      ({ s.flush_changes with
          model := s.flush_changes.model.insertRows s.flush_changes.i (added.map (·.2))
          i := s.flush_changes.i + added.length }, left) := by
    unfold Variants.insertBatch
    dsimp only
    rw [h.flush.cursor]
  have hne : added ≠ [] := by
    have hfirst : v.comesBefore rest.head? (key, row) = true := by
      unfold Variants.comesBefore
      split
      · rfl
      · rename_i r hr
        simpa using hnext r hr
    simp [added, hfirst]
  have hadded : ∀ entry ∈ added, ∀ r ∈ rest, entry.1 < v.id r := by
    intro entry hentry
    exact h.lt_of_comesBefore hordered (List.mem_takeWhile_imp hentry)
  have hflushed := hdelays.flush
  have hpass := h.flush
  rw [hsplit] at hpass
  replace hpass := hpass.insertRows hordered hne hadded
  rw [hbatch]
  refine ⟨added, hne, hsplit, hpass, Merge.Flushed.delays ⟨?_, hflushed.changed⟩ hpass.i_le⟩
  apply hflushed.follows.insertRows h.flush.i_le
  simpa using hne

theorem Pass.finish (h : Pass v m_rows rows s rows.toList [] gone rest) (hdelays : s.Delays v m_rows) :
    Becomes (View.ofData v.data) { rows := m_rows } s.finish.model (rows.toList.map (·.2)) ∧
      ∀ n ∈ s.finish.model.notices, KeepsCommon v m_rows rows n := by
  have hflushed := hdelays.flush
  have hpass := h.flush
  have hlength : s.model.rows.length = s.i + rest.length := by
    rw [h.model, h.i, List.length_append, List.length_map]
  unfold Merge.finish
  dsimp only
  split
  · rename_i hbehind
    rw [Merge.flush_changes_rows, Merge.flush_changes_i] at hbehind
    have hne : rest ≠ [] := List.length_pos_iff.mp (by omega)
    rw [← List.append_nil rest] at hpass
    have hstop : s.flush_changes.model.rows.length = s.flush_changes.i + rest.length := by
      rw [Merge.flush_changes_rows, Merge.flush_changes_i, hlength]
    have hremoved := hpass.removeRows hne (by simp) hstop
    refine ⟨⟨hremoved.model.trans (List.append_nil _), ?_⟩, hremoved.common⟩
    apply hflushed.follows.removeRows _ le_rfl
    rwa [Merge.flush_changes_rows, Merge.flush_changes_i]
  · rename_i hend
    rw [Merge.flush_changes_rows, Merge.flush_changes_i] at hend
    have hempty : rest = [] := List.length_eq_zero_iff.mp (by omega)
    subst hempty
    exact ⟨⟨hpass.model.trans (List.append_nil _), hflushed.follows⟩, hpass.common⟩

variable [DecidableEq Value]

theorem Pass.changeRow {old : Row Value} (hordered : Ordered v m_rows rows)
    (h : Pass v m_rows rows s done ((key, row) :: it) gone (old :: rest)) (hkey : v.id old = key) :
    Pass v m_rows rows { v.changeRow s old row with i := s.i + 1 } (done ++ [(key, row)]) it (gone ++ [old])
      rest := by
  have hsorted := hordered.old
  rw [h.old_rows] at hsorted
  have hahead := (List.pairwise_cons.mp (List.pairwise_append.mp hsorted).2.1).1
  refine ⟨by simp [h.new_rows], by simp [h.old_rows], ?_, by simp [h.i], ?_, ?_, ?_⟩
  · rw [List.map_append, List.append_assoc]
    unfold Variants.changeRow
    split
    · rename_i heq
      subst heq
      exact h.model
    · rw [RowModel.setRow_rows, h.model, h.i]
      simp
  · intro r hr entry hentry
    rcases List.mem_append.mp hr with hgone | hold
    · exact h.behind r hgone entry (List.mem_cons_of_mem _ hentry)
    · obtain rfl := List.mem_singleton.mp hold
      rw [hkey]
      exact h.key_lt entry hentry
  · intro r hr entry hentry
    rcases List.mem_append.mp hentry with hdone | hnew
    · exact h.ahead r (List.mem_cons_of_mem _ hr) entry hdone
    · obtain rfl := List.mem_singleton.mp hnew
      rw [← hkey]
      exact hahead r hr
  · unfold Variants.changeRow
    split
    · exact h.common
    · exact h.common

/-- The loop ends, with all new rows before the cursor. -/
theorem Pass.merge (hordered : Ordered v m_rows rows) {turns : Nat} (hturns : it.length ≤ turns)
    (h : Pass v m_rows rows s done it gone rest) (hdelays : s.Delays v m_rows) :
    ∃ s' gone' rest', v.merge turns s it = some s' ∧ Pass v m_rows rows s' rows.toList [] gone' rest' ∧
      s'.Delays v m_rows := by
  induction turns generalizing s done it gone rest with
  | zero =>
    obtain rfl := List.length_eq_zero_iff.mp (Nat.le_zero.mp hturns)
    have hdone : rows.toList = done := by simpa using h.new_rows
    exact ⟨s, gone, rest, rfl, hdone ▸ h, hdelays⟩
  | succ turns ih =>
    match it, h, hturns with
    | [], h, _ =>
      have hdone : rows.toList = done := by simpa using h.new_rows
      exact ⟨s, gone, rest, rfl, hdone ▸ h, hdelays⟩
    | (key, row) :: it, h, hturns =>
      obtain ⟨front, rest', -, hhead, hpass, hdelays'⟩ := h.removeBefore hdelays
      rw [Variants.merge]
      dsimp only
      generalize v.removeBefore s key = s' at hpass hdelays'
      split
      · -- The next old row has another id, so a later one.
        rename_i hnone
        rw [hpass.cursor, Option.filter_eq_none_iff] at hnone
        have hnext : ∀ r ∈ rest'.head?, key < v.id r := by
          intro r hr
          have hne : v.id r ≠ key := by simpa using hnone r hr
          exact lt_of_le_of_ne (not_lt.mp (hhead r hr)) hne.symm
        obtain ⟨added, hne, hsplit, hinserted, hdelays''⟩ := hpass.insertBatch hordered hdelays' hnext
        apply ih _ hinserted hdelays''
        have hlength := congrArg List.length hsplit
        have hpos := List.length_pos_iff.mpr hne
        rw [List.length_append, List.length_cons] at hlength
        rw [List.length_cons] at hturns
        omega
      · rename_i old hold
        rw [Option.filter_eq_some_iff] at hold
        obtain ⟨hcursor, hkey⟩ := hold
        have hrow := hcursor
        rw [hpass.cursor] at hcursor
        obtain ⟨rest'', rfl⟩ := List.head?_eq_some_iff.mp hcursor
        exact ih (Nat.le_of_succ_le_succ hturns) (hpass.changeRow hordered (by simpa using hkey))
          (hdelays'.changeRow row hrow)

theorem reconcile_eq (hordered : Ordered v m_rows rows) (transaction_count : Nat) :
    ∃ s gone rest, (v.reconcile transaction_count m_rows rows).map (·.1) = some s.finish.model ∧
      Pass v m_rows rows s rows.toList [] gone rest ∧ s.Delays v m_rows := by
  have hdelays : Merge.Delays v m_rows { model := { rows := m_rows } } :=
    Merge.Flushed.delays ⟨Follows.refl _ _, rfl⟩ (Nat.zero_le _)
  obtain ⟨s, gone, rest, hmerge, hpass, hdelays⟩ := (Pass.start v m_rows rows).merge hordered le_rfl hdelays
  refine ⟨s, gone, rest, ?_, hpass, hdelays⟩
  unfold Variants.reconcile
  rw [hmerge]
  rfl

/-- The rows end as the new ones in the order of their ids, and whoever replays the notices shows them. -/
theorem reconcile_follows (hordered : Ordered v m_rows rows) (transaction_count : Nat) :
    ∃ model count_changed, v.reconcile transaction_count m_rows rows = some (model, count_changed) ∧
      Becomes (View.ofData v.data) { rows := m_rows } model (rows.toList.map (·.2)) ∧
      ∀ n ∈ model.notices, KeepsCommon v m_rows rows n := by
  obtain ⟨s, gone, rest, hreconcile, hpass, hdelays⟩ := reconcile_eq hordered transaction_count
  obtain ⟨⟨model, count_changed⟩, hresult, rfl⟩ := Option.map_eq_some_iff.mp hreconcile
  obtain ⟨hbecomes, hcommon⟩ := hpass.finish hdelays
  exact ⟨_, count_changed, hresult, hbecomes, hcommon⟩

namespace TwoRows

/-- Values are numbers, with zero for none. -/
def variants : Variants Nat Nat where
  invalid := 0
  toString value := value
  toBool value := value ≠ 0

def rowAt (depth id : Nat) : Row Nat := ((∅ : Row Nat).insert IdRole id).insert (UserRole + 4) depth

def before : List (Row Nat) := [rowAt 0 1, rowAt 0 2]

/-- The first row goes, the second gets deeper, and a third one comes. -/
def after : RowMap Nat Nat := ((∅ : RowMap Nat Nat).insert 2 (rowAt 1 2)).insert 3 (rowAt 0 3)

theorem id_rowAt (depth id : Nat) : variants.id (rowAt depth id) = id := by
  simp [Variants.id, Variants.data, variants, rowAt, IdRole, UserRole, Std.ExtTreeMap.getD_insert]

theorem ordered : Ordered variants before after where
  old := by simp [Sorted, before, id_rowAt]
  new key r h := by
    simp only [after, Std.ExtTreeMap.getElem?_insert, compare_eq_iff_eq] at h
    split at h
    · rename_i hkey
      cases h
      rw [id_rowAt, hkey]
    · split at h
      · rename_i hkey
        cases h
        rw [id_rowAt, hkey]
      · simp at h

theorem reconcile_follows_mixed :
    ∃ model count_changed, variants.reconcile 2 before after = some (model, count_changed) ∧
      Becomes (View.ofData variants.data) { rows := before } model (after.toList.map (·.2)) ∧
      ∀ n ∈ model.notices, KeepsCommon variants before after n :=
  reconcile_follows ordered 2

end TwoRows

/-! ## All rebuilds -/

/-- One rebuild after another, of a model that starts empty. -/
def rebuilds (v : Variants Value Key) (maps : List (RowMap Key Value)) : Option (List (Row Value)) :=
  maps.foldlM (fun m_rows rows => (v.reconcile 0 m_rows rows).map (·.1.rows)) []

/-- The rows of a model are always sorted, so each rebuild ends. -/
theorem rebuilds_sorted (maps : List (RowMap Key Value)) (hmaps : ∀ rows ∈ maps, ById v rows) :
    ∃ m_rows, rebuilds v maps = some m_rows ∧ Sorted v m_rows := by
  induction maps using List.reverseRecOn with
  | nil => exact ⟨[], rfl, List.Pairwise.nil⟩
  | append_singleton maps rows ih =>
    obtain ⟨m_rows, hrun, hsorted⟩ := ih fun rows' hrows' => hmaps rows' (List.mem_append_left _ hrows')
    have hnew := hmaps rows (by simp)
    obtain ⟨s, gone, rest, hreconcile, hpass, hdelays⟩ := reconcile_eq (v := v) ⟨hsorted, hnew⟩ 0
    refine ⟨s.finish.model.rows, ?_, ?_⟩
    · unfold rebuilds at hrun ⊢
      rw [List.foldlM_append, hrun]
      have hrows := congrArg (Option.map (·.rows)) hreconcile
      rw [Option.map_map] at hrows
      simpa using hrows
    · rw [(hpass.finish hdelays).1.rows]
      exact sorted_toList hnew

end Pass

end GuiQml.Activity.Rows
