import GuiQml.Lib.Lines
import Mathlib.Data.List.Basic

/-!
# Rows and their views

A model of rows tells its views when it removes, inserts or changes rows. A view keeps what it shows of each
row and reads only the rows it is told of, so a notice that is missing or misplaced leaves it wrong for good.
-/

namespace GuiQml.Rows

open Lines

variable {Row Role β Value : Type*}

inductive Event (Role : Type*)
  | removed (first last : Nat)
  | inserted (first last : Nat)
  | changed (first last : Nat) (roles : List Role)
  | reset
  deriving DecidableEq, Repr

structure Notice (Row Role : Type*) where
  event : Event Role
  /-- The rows of the model when the event begins. -/
  before : List Row
  /-- The rows that a view can read once it is told. -/
  after : List Row
  deriving DecidableEq, Repr

namespace Notice

/-- The event names rows of the model it is emitted by. -/
def InRange (n : Notice Row Role) : Prop :=
  match n.event with
  | .removed first last => first ≤ last ∧ last < n.before.length
  | .inserted first last => first ≤ last ∧ first ≤ n.before.length
  | .changed first last _ => first ≤ last ∧ last < n.before.length
  | .reset => True

instance (n : Notice Row Role) : Decidable n.InRange := by
  unfold InRange
  split <;> infer_instance

def removedRows (n : Notice Row Role) : List Row :=
  match n.event with
  | .removed first last => slice n.before first (last + 1)
  | _ => []

def insertedRows (n : Notice Row Role) : List Row :=
  match n.event with
  | .inserted first last => slice n.after first (last + 1)
  | _ => []

end Notice

/-! ## Models -/

structure RowModel (Row Role : Type*) where
  rows : List Row
  /-- What the views are told, in that order. -/
  notices : List (Notice Row Role) := []
  deriving DecidableEq, Repr

namespace RowModel

variable (m : RowModel Row Role)

def tell (event : Event Role) (rows : List Row) : RowModel Row Role :=
  { rows, notices := m.notices ++ [{ event, before := m.rows, after := rows }] }

/-- The rows from `first` on, up to the one before `stop`. -/
def removeRows (first stop : Nat) : RowModel Row Role :=
  m.tell (.removed first (stop - 1)) (m.rows.take first ++ m.rows.drop stop)

def insertRows (first : Nat) (new : List Row) : RowModel Row Role :=
  m.tell (.inserted first (first + new.length - 1)) (m.rows.take first ++ new ++ m.rows.drop first)

def resetRows (new : List Row) : RowModel Row Role := m.tell .reset new

/-- `dataChanged`. The rows have the new data already. -/
def dataChanged (first last : Nat) (roles : List Role) : RowModel Row Role :=
  m.tell (.changed first last roles) m.rows

/-- A row gets new data, and nobody is told yet. -/
def setRow (i : Nat) (row : Row) : RowModel Row Role := { m with rows := m.rows.set i row }

@[simp] theorem removeRows_rows (first stop : Nat) :
    (m.removeRows first stop).rows = m.rows.take first ++ m.rows.drop stop := rfl

@[simp] theorem insertRows_rows (first : Nat) (new : List Row) :
    (m.insertRows first new).rows = m.rows.take first ++ new ++ m.rows.drop first := rfl

@[simp] theorem resetRows_rows (new : List Row) : (m.resetRows new).rows = new := rfl

@[simp] theorem dataChanged_rows (first last : Nat) (roles : List Role) :
    (m.dataChanged first last roles).rows = m.rows := rfl

@[simp] theorem setRow_rows (i : Nat) (row : Row) : (m.setRow i row).rows = m.rows.set i row := rfl

@[simp] theorem setRow_notices (i : Nat) (row : Row) : (m.setRow i row).notices = m.notices := rfl

theorem forall_tell {p : Notice Row Role → Prop} {event : Event Role} {rows : List Row}
    (h : ∀ n ∈ m.notices, p n) (hnew : p { event, before := m.rows, after := rows }) :
    ∀ n ∈ (m.tell event rows).notices, p n := by
  intro n hn
  rw [tell, List.mem_append, List.mem_singleton] at hn
  rcases hn with hn | rfl
  · exact h n hn
  · exact hnew

end RowModel

/-! ## Views -/

structure View (Row Role β : Type*) where
  look : Row → β
  /-- What is shown of a row after some roles of it are read again. -/
  reread : List Role → Row → β → β

namespace View

variable (v : View Row Role β)

def apply (shown : List β) (n : Notice Row Role) : List β :=
  match n.event with
  | .removed first last => shown.take first ++ shown.drop (last + 1)
  | .inserted first last =>
    shown.take first ++ (slice n.after first (last + 1)).map v.look ++ shown.drop first
  | .changed first last roles =>
    shown.mapIdx fun i s =>
      if first ≤ i ∧ i ≤ last then (n.after[i]?.map fun row => v.reread roles row s).getD s else s
  | .reset => n.after.map v.look

def replay (shown : List β) (notices : List (Notice Row Role)) : List β := notices.foldl v.apply shown

/-- A view of the rows themselves. -/
def rows : View Row Role Row where
  look := id
  reread _ row _ := row

/-- A view of the data in every role. Where no roles are named, all are read again. -/
def ofData [DecidableEq Role] (data : Row → Role → Value) : View Row Role (Role → Value) where
  look := data
  reread roles row shown role := if roles = [] ∨ role ∈ roles then data row role else shown role

end View

/-! ## Views in step -/

theorem slice_inserted {first : Nat} (rows new : List Row) (hfirst : first ≤ rows.length) :
    slice (rows.take first ++ new ++ rows.drop first) first (first + new.length) = new := by
  have hfront : (rows.take first).length = first := List.length_take_of_le hfirst
  rw [slice, List.take_append_of_le_length (by simp [hfront])]
  rw [List.take_of_length_le (by simp [hfront])]
  exact List.drop_left' hfront

/-- From `m` to `m'` every notice was in range, and whoever replays them shows `ok` for the rows. -/
def Keeps (v : View Row Role β) (ok : List Row → List β → Prop) (m m' : RowModel Row Role) : Prop :=
  ∃ told, m'.notices = m.notices ++ told ∧ (∀ n ∈ told, n.InRange) ∧
    ok m'.rows (v.replay (m.rows.map v.look) told)

/-- Whoever replays the notices shows exactly the rows. -/
def Follows (v : View Row Role β) (m m' : RowModel Row Role) : Prop :=
  Keeps v (fun rows shown => shown = rows.map v.look) m m'

theorem Keeps.mono {v : View Row Role β} {ok ok' : List Row → List β → Prop} {m m' : RowModel Row Role}
    (h : Keeps v ok m m') (himp : ∀ shown, ok m'.rows shown → ok' m'.rows shown) : Keeps v ok' m m' := by
  obtain ⟨told, htold, hrange, hok⟩ := h
  exact ⟨told, htold, hrange, himp _ hok⟩

theorem Keeps.tell {v : View Row Role β} {ok ok' : List Row → List β → Prop} {m m' : RowModel Row Role}
    {event : Event Role} {rows : List Row} (h : Keeps v ok m m')
    (hrange : Notice.InRange { event, before := m'.rows, after := rows })
    (hok : ∀ shown, ok m'.rows shown → ok' rows (v.apply shown { event, before := m'.rows, after := rows })) :
    Keeps v ok' m (m'.tell event rows) := by
  obtain ⟨told, htold, htold_range, hshown⟩ := h
  refine ⟨told ++ [{ event, before := m'.rows, after := rows }], ?_, ?_, ?_⟩
  · rw [RowModel.tell, htold, List.append_assoc]
  · simpa [or_imp, forall_and] using ⟨htold_range, hrange⟩
  · rw [View.replay, List.foldl_append]
    exact hok _ hshown

theorem Keeps.setRow {v : View Row Role β} {ok ok' : List Row → List β → Prop} {m m' : RowModel Row Role}
    {i : Nat} {row : Row} (h : Keeps v ok m m')
    (hok : ∀ shown, ok m'.rows shown → ok' (m'.rows.set i row) shown) : Keeps v ok' m (m'.setRow i row) := by
  obtain ⟨told, htold, hrange, hshown⟩ := h
  exact ⟨told, htold, hrange, hok _ hshown⟩

namespace Follows

variable {v : View Row Role β} {m m' m'' : RowModel Row Role} {new : List Row} {first stop : Nat}

theorem refl (v : View Row Role β) (m : RowModel Row Role) : Follows v m m := ⟨[], by simp [View.replay]⟩

theorem trans (h : Follows v m m') (h' : Follows v m' m'') : Follows v m m'' := by
  obtain ⟨told, htold, hrange, hshows⟩ := h
  obtain ⟨told', htold', hrange', hshows'⟩ := h'
  refine ⟨told ++ told', by rw [htold', htold, List.append_assoc], ?_, ?_⟩
  · intro n hn
    exact (List.mem_append.mp hn).elim (hrange n) (hrange' n)
  · dsimp only [View.replay] at hshows hshows' ⊢
    rw [List.foldl_append, hshows, hshows']

theorem removeRows (h : Follows v m m') (hfirst : first < stop) (hstop : stop ≤ m'.rows.length) :
    Follows v m (m'.removeRows first stop) := by
  have hlast : stop - 1 + 1 = stop := by omega
  apply h.tell
  · exact ⟨by omega, show stop - 1 < m'.rows.length by omega⟩
  · rintro _ rfl
    simp [View.apply, hlast]

theorem insertRows (h : Follows v m m') (hfirst : first ≤ m'.rows.length) (hnew : new ≠ []) :
    Follows v m (m'.insertRows first new) := by
  have hpos := List.length_pos_iff.mpr hnew
  have hlast : first + new.length - 1 + 1 = first + new.length := by omega
  have hread := slice_inserted m'.rows new hfirst
  apply h.tell
  · exact ⟨by omega, hfirst⟩
  · rintro _ rfl
    simp only [View.apply, hlast, hread, List.map_append, List.map_take, List.map_drop]

theorem resetRows (h : Follows v m m') : Follows v m (m'.resetRows new) := by
  apply h.tell
  · trivial
  · intros
    rfl

theorem dataChanged {m m' : RowModel Row Role} {last : Nat} (h : Follows .rows m m') (hfirst : first ≤ last)
    (hlast : last < m'.rows.length) (roles : List Role) : Follows .rows m (m'.dataChanged first last roles) := by
  apply h.tell
  · exact ⟨hfirst, hlast⟩
  · rintro _ rfl
    apply List.ext_getElem?
    intro i
    rw [View.apply, List.getElem?_mapIdx, List.getElem?_map]
    cases hi : m'.rows[i]? with
    | none => rfl
    | some row =>
      dsimp only [Option.map_some]
      split
      · rfl
      · rfl

end Follows

/-- A view that follows ends with `rows`. -/
structure Becomes (v : View Row Role β) (m m' : RowModel Row Role) (rows : List Row) : Prop where
  rows : m'.rows = rows
  follows : Follows v m m'

namespace Becomes

variable {v : View Row Role β} {m m' : RowModel Row Role} {rows rows' new : List Row} {first stop : Nat}

theorem refl (v : View Row Role β) (m : RowModel Row Role) : Becomes v m m m.rows := ⟨rfl, Follows.refl v m⟩

theorem congr (h : Becomes v m m' rows) (hrows : rows = rows') : Becomes v m m' rows' := hrows ▸ h

theorem removeRows (h : Becomes v m m' rows) (hfirst : first < stop) (hstop : stop ≤ rows.length) :
    Becomes v m (m'.removeRows first stop) (rows.take first ++ rows.drop stop) := by
  obtain rfl := h.rows
  exact ⟨rfl, h.follows.removeRows hfirst hstop⟩

theorem insertRows (h : Becomes v m m' rows) (hfirst : first ≤ rows.length) (hnew : new ≠ []) :
    Becomes v m (m'.insertRows first new) (rows.take first ++ new ++ rows.drop first) := by
  obtain rfl := h.rows
  exact ⟨rfl, h.follows.insertRows hfirst hnew⟩

theorem resetRows (h : Becomes v m m' rows) : Becomes v m (m'.resetRows new) new := ⟨rfl, h.follows.resetRows⟩

theorem removeSome {p : Prop} [Decidable p] (h : Becomes v m m' rows) (hp : p ↔ first < stop)
    (hfirst : first ≤ stop) (hstop : stop ≤ rows.length) :
    Becomes v m (if p then m'.removeRows first stop else m') (rows.take first ++ rows.drop stop) := by
  split
  · rename_i hsome
    exact h.removeRows (hp.mp hsome) hstop
  · rename_i hnone
    rw [hp] at hnone
    have heq : first = stop := by omega
    apply h.congr
    rw [heq, List.take_append_drop]

theorem insertSome {p : Prop} [Decidable p] (h : Becomes v m m' rows) (hp : p ↔ new ≠ [])
    (hfirst : first ≤ rows.length) :
    Becomes v m (if p then m'.insertRows first new else m') (rows.take first ++ new ++ rows.drop first) := by
  split
  · rename_i hsome
    exact h.insertRows hfirst (hp.mp hsome)
  · rename_i hnone
    rw [hp, not_not] at hnone
    apply h.congr
    rw [hnone, List.append_nil, List.take_append_drop]

theorem appendSome {p : Prop} [Decidable p] (h : Becomes v m m' rows) (hp : p ↔ new ≠ []) :
    Becomes v m (if p then m'.insertRows m'.rows.length new else m') (rows ++ new) := by
  obtain rfl := h.rows
  apply (h.insertSome hp le_rfl).congr
  rw [List.take_length, List.drop_length, List.append_nil]

end Becomes

/-! ## Delayed changes -/

section Delayed

/-- What a view shows differs from the data only where it is stale. -/
structure Behind (data : Row → Role → Value) (stale : Nat → Role → Prop) (rows : List Row)
    (shown : List (Role → Value)) : Prop where
  length : shown.length = rows.length
  reads : ∀ i row s, rows[i]? = some row → shown[i]? = some s → ∀ role, ¬ stale i role → s role = data row role

variable {data : Row → Role → Value} {stale stale' : Nat → Role → Prop} {rows : List Row}
  {shown : List (Role → Value)} {roles : List Role} {first last i : Nat} {row : Row}

theorem behind_refl (rows : List Row) : Behind data stale rows (rows.map data) where
  length := by simp
  reads i row s hrow hs role _ := by
    rw [List.getElem?_map, hrow] at hs
    rw [← Option.some.inj hs]

theorem Behind.mono (h : Behind data stale rows shown) (himp : ∀ i role, stale i role → stale' i role) :
    Behind data stale' rows shown where
  length := h.length
  reads i row s hrow hs role hfresh := h.reads i row s hrow hs role fun hstale => hfresh (himp i role hstale)

theorem Behind.eq (h : Behind data stale rows shown) (hstale : ∀ i role, ¬ stale i role) :
    shown = rows.map data := by
  apply List.ext_getElem?
  intro i
  rw [List.getElem?_map]
  rcases hrow : rows[i]? with _ | row
  · rw [List.getElem?_eq_none_iff] at hrow
    rw [Option.map_none, List.getElem?_eq_none_iff, h.length]
    exact hrow
  · have hi : i < shown.length := h.length ▸ (List.getElem?_eq_some_iff.mp hrow).1
    have hs := List.getElem?_eq_getElem hi
    rw [hs, Option.map_some]
    congr 1
    funext role
    exact h.reads i row _ hrow hs role (hstale i role)

theorem Behind.set (h : Behind data stale rows shown) (hmore : ∀ j role, stale j role → stale' j role)
    (hrow : ∀ old role, rows[i]? = some old → ¬ stale' i role → data row role = data old role) :
    Behind data stale' (rows.set i row) shown where
  length := by simpa using h.length
  reads j r s hr hs role hfresh := by
    have hwas : ¬ stale j role := fun hstale => hfresh (hmore j role hstale)
    rw [List.getElem?_set] at hr
    split at hr
    · rename_i hij
      subst hij
      split at hr
      · rename_i hi
        have hold := List.getElem?_eq_getElem hi
        obtain rfl := Option.some.inj hr
        rw [hrow _ role hold hfresh]
        exact h.reads i _ s hold hs role hwas
      · cases hr
    · exact h.reads j r s hr hs role hwas

variable [DecidableEq Role]

theorem Behind.changed (before : List Row)
    (h : Behind data (fun j role => first ≤ j ∧ j ≤ last ∧ role ∈ roles) rows shown) :
    (View.ofData data).apply shown { event := .changed first last roles, before, after := rows } =
      rows.map data := by
  apply List.ext_getElem?
  intro j
  simp only [View.apply, List.getElem?_mapIdx, List.getElem?_map]
  rcases hrow : rows[j]? with _ | row
  · rw [List.getElem?_eq_none_iff, ← h.length] at hrow
    rw [List.getElem?_eq_none hrow]
    rfl
  · have hj : j < shown.length := h.length ▸ (List.getElem?_eq_some_iff.mp hrow).1
    have hs := List.getElem?_eq_getElem hj
    rw [hs, Option.map_some, Option.map_some]
    congr 1
    funext role
    split
    · simp only [Option.getD_some, View.ofData]
      split
      · rfl
      · rename_i hrole
        exact h.reads j row _ hrow hs role fun hstale => hrole (.inr hstale.2.2)
    · rename_i hout
      exact h.reads j row _ hrow hs role fun hstale => hout ⟨hstale.1, hstale.2.1⟩

end Delayed

end GuiQml.Rows
