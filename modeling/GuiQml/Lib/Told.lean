import GuiQml.Lib.Rows

/-!
# What notices leave as it was

A chain of notices leads from the rows before the first to those after the last. What a view shows stays in step
with a part of it, with a property of every row and with what the notices do not touch.
-/

namespace GuiQml.Rows

variable {Row Role Value β γ : Type*}

/-- A notice of changed data moves no row. -/
def Notice.Lawful (n : Notice Row Role) : Prop :=
  ∀ first last roles, n.event = .changed first last roles → n.after = n.before

/-- Each notice begins where the one before it ended. -/
def Chain : List Row → List (Notice Row Role) → List Row → Prop
  | rows, [], rows' => rows' = rows
  | rows, n :: notices, rows' => n.before = rows ∧ n.Lawful ∧ Chain n.after notices rows'

namespace View

variable {v : View Row Role β} {w : View Row Role γ} {f : β → γ} {P : β → Prop} {shown : List β}
  {notices : List (Notice Row Role)} {n : Notice Row Role}

/-- A view of the data in one role. -/
def ofRole [DecidableEq Role] (data : Row → Role → Value) (role : Role) : View Row Role Value where
  look row := data row role
  reread roles row shown := if roles = [] ∨ role ∈ roles then data row role else shown

theorem map_apply (hlook : ∀ row, f (v.look row) = w.look row)
    (hreread : ∀ roles row s, f (v.reread roles row s) = w.reread roles row (f s)) :
    (v.apply shown n).map f = w.apply (shown.map f) n := by
  unfold apply
  split
  · simp [List.map_take, List.map_drop]
  · simp [List.map_take, List.map_drop, hlook]
  · apply List.ext_getElem?
    intro i
    simp only [List.getElem?_map, List.getElem?_mapIdx]
    rcases shown[i]? with _ | s
    · rfl
    · simp only [Option.map_some]
      split
      · rcases n.after[i]? with _ | row
        · rfl
        · simp [hreread]
      · rfl
  · simp [hlook]

theorem map_replay (hlook : ∀ row, f (v.look row) = w.look row)
    (hreread : ∀ roles row s, f (v.reread roles row s) = w.reread roles row (f s)) :
    (v.replay shown notices).map f = w.replay (shown.map f) notices := by
  unfold replay
  induction notices generalizing shown with
  | nil => rfl
  | cons n notices ih => rw [List.foldl_cons, List.foldl_cons, ih, map_apply hlook hreread]

theorem map_role_replay [DecidableEq Role] (data : Row → Role → Value) (role : Role) {shown : List (Role → Value)} :
    ((ofData data).replay shown notices).map (· role) = (ofRole data role).replay (shown.map (· role)) notices :=
  map_replay (fun _ => rfl) fun _ _ _ => rfl

theorem forall_apply (hlook : ∀ row, P (v.look row))
    (hreread : ∀ first last roles, n.event = .changed first last roles → ∀ row s, P s → P (v.reread roles row s))
    (h : ∀ s ∈ shown, P s) : ∀ s ∈ v.apply shown n, P s := by
  unfold apply
  split
  · intro s hs
    rcases List.mem_append.1 hs with hs | hs
    · exact h s (List.mem_of_mem_take hs)
    · exact h s (List.mem_of_mem_drop hs)
  · intro s hs
    rcases List.mem_append.1 hs with hs | hs
    · rcases List.mem_append.1 hs with hs | hs
      · exact h s (List.mem_of_mem_take hs)
      · obtain ⟨row, -, rfl⟩ := List.mem_map.1 hs
        exact hlook row
    · exact h s (List.mem_of_mem_drop hs)
  · rename_i first last roles hevent
    intro s hs
    obtain ⟨i, hi, rfl⟩ := List.mem_mapIdx.1 hs
    split
    · rcases n.after[i]? with _ | row
      · exact h _ (List.getElem_mem hi)
      · exact hreread first last roles hevent row _ (h _ (List.getElem_mem hi))
    · exact h _ (List.getElem_mem hi)
  · intro s hs
    obtain ⟨row, -, rfl⟩ := List.mem_map.1 hs
    exact hlook row

theorem forall_replay (hlook : ∀ row, P (v.look row))
    (hreread : ∀ n ∈ notices, ∀ first last roles, n.event = .changed first last roles →
      ∀ row s, P s → P (v.reread roles row s))
    (h : ∀ s ∈ shown, P s) : ∀ s ∈ v.replay shown notices, P s := by
  unfold replay
  induction notices generalizing shown with
  | nil => exact h
  | cons n notices ih =>
    exact ih (fun m hm => hreread m (List.mem_cons_of_mem n hm))
      (forall_apply hlook (hreread n List.mem_cons_self) h)

/-- The notice is of changed data that `f` does not depend on. -/
def Quiet (v : View Row Role β) (f : β → γ) (n : Notice Row Role) : Prop :=
  ∃ first last roles, n.event = .changed first last roles ∧ ∀ row s, f (v.reread roles row s) = f s

theorem map_apply_of_quiet (h : v.Quiet f n) : (v.apply shown n).map f = shown.map f := by
  obtain ⟨first, last, roles, hevent, hsame⟩ := h
  unfold apply
  rw [hevent]
  apply List.ext_getElem?
  intro i
  simp only [List.getElem?_map, List.getElem?_mapIdx]
  rcases shown[i]? with _ | s
  · rfl
  · simp only [Option.map_some]
    split
    · rcases n.after[i]? with _ | row
      · rfl
      · simp [hsame]
    · rfl

theorem map_replay_of_quiet (h : ∀ n ∈ notices, v.Quiet f n) : (v.replay shown notices).map f = shown.map f := by
  unfold replay
  induction notices generalizing shown with
  | nil => rfl
  | cons n notices ih =>
    rw [List.foldl_cons, ih fun m hm => h m (List.mem_cons_of_mem n hm),
      map_apply_of_quiet (h n List.mem_cons_self)]

end View

end GuiQml.Rows
