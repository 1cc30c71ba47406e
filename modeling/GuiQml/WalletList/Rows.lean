import GuiQml.WalletList.Model

/-!
# The rows of the wallet list

What one call does to the rows: whose names they have, in which order they come, and what they keep.
-/

namespace GuiQml.WalletList

variable {foldCase : QString → List Nat} {m : WalletListModel} {listed : Option (List QString)}
  {opened names : List QString} {items items' : List Item} {item a b : Item} {name : QString}

/-! ## Names -/

/-- The rows of the wallets that are listed or open, once there was a listing. -/
structure Rows (listed : Option (List QString)) (opened : List QString) (items : List Item) : Prop where
  keyed : Keyed Item.name items
  names : ∀ name, name ∈ items.map Item.name ↔ ∃ names, listed = some names ∧ (name ∈ names ∨ name ∈ opened)
  from_wallet_dir : ∀ item ∈ items,
    item.from_wallet_dir = true ↔ ∃ names, listed = some names ∧ item.name ∈ names

namespace Rows

theorem empty : Rows none [] [] := ⟨Keyed.nil, by simp, by simp⟩

theorem perm (h : Rows listed opened items) (hperm : items'.Perm items) : Rows listed opened items' where
  keyed := (hperm.map Item.name).nodup_iff.mpr h.keyed
  names name := (hperm.map Item.name).mem_iff.trans (h.names name)
  from_wallet_dir item hitem := h.from_wallet_dir item (hperm.mem_iff.mp hitem)

theorem congr (h : Rows listed opened items)
    (hrows : items'.map WalletListModel.rowOf = items.map WalletListModel.rowOf) : Rows listed opened items' := by
  have hnames : items'.map Item.name = items.map Item.name := by
    simpa [WalletListModel.rowOf, Function.comp_def] using congrArg (List.map Prod.fst) hrows
  refine ⟨?_, fun name => ?_, fun item hitem => ?_⟩
  · unfold Keyed
    rw [hnames]
    exact h.keyed
  · rw [hnames]
    exact h.names name
  · obtain ⟨other, hother, heq⟩ := List.mem_map.mp (hrows ▸ List.mem_map_of_mem hitem)
    have hrow := h.from_wallet_dir other hother
    simp only [WalletListModel.rowOf, Prod.mk.injEq] at heq
    rwa [heq.1, heq.2.2] at hrow

theorem opened_congr {opened' : List QString} (h : Rows listed opened items)
    (hopened : ∀ name, name ∈ opened' ↔ name ∈ opened) : Rows listed opened' items where
  keyed := h.keyed
  names name := by rw [h.names, hopened]
  from_wallet_dir := h.from_wallet_dir

theorem snoc (h : Rows (some names) opened items) (hitem : item.name ∉ items.map Item.name)
    (hdir : item.from_wallet_dir = false) : Rows (some names) (opened ++ [item.name]) (items ++ [item]) where
  keyed := h.keyed.snoc hitem
  names name := by
    have hname := h.names name
    simp only [Option.some.injEq, exists_eq_left'] at hname
    simp only [List.map_append, List.map_singleton, List.mem_append, List.mem_singleton, hname,
      Option.some.injEq, exists_eq_left', or_assoc]
  from_wallet_dir other hother := by
    rcases List.mem_append.mp hother with hother | hother
    · exact h.from_wallet_dir other hother
    · rw [List.mem_singleton.mp hother, hdir]
      refine iff_of_false Bool.false_ne_true fun ⟨names, hnames, hmem⟩ => hitem ?_
      exact (h.names item.name).mpr ⟨names, hnames, .inl hmem⟩

theorem opened_snoc (h : Rows listed opened items) (hname : listed = none ∨ name ∈ items.map Item.name) :
    Rows listed (opened ++ [name]) items where
  keyed := h.keyed
  names other := by
    rw [h.names other]
    constructor
    · rintro ⟨names, hlisted, hother⟩
      exact ⟨names, hlisted, hother.imp_right (List.mem_append_left _)⟩
    · rintro ⟨names, hlisted, hother | hother⟩
      · exact ⟨names, hlisted, .inl hother⟩
      · rcases List.mem_append.mp hother with hother | hother
        · exact ⟨names, hlisted, .inr hother⟩
        · rw [List.mem_singleton.mp hother]
          rcases hname with hnone | hname
          · rw [hnone] at hlisted
            cases hlisted
          · exact (h.names name).mp hname
  from_wallet_dir := h.from_wallet_dir

theorem closed (h : Rows listed opened items) (name : QString) :
    Rows listed (opened.filter (· ≠ name))
      (items.filter fun item => !(item.name = name && !item.from_wallet_dir)) where
  keyed := h.keyed.sublist List.filter_sublist
  names other := by
    constructor
    · intro hother
      obtain ⟨item, hitem, rfl⟩ := List.mem_map.mp hother
      obtain ⟨hitem, hkept⟩ := List.mem_filter.mp hitem
      obtain ⟨names, hlisted, hmem⟩ := (h.names item.name).mp (List.mem_map_of_mem hitem)
      refine ⟨names, hlisted, ?_⟩
      by_cases hname : item.name = name
      · have hdir : item.from_wallet_dir = true := by simpa [hname] using hkept
        obtain ⟨names', hlisted', hmem'⟩ := (h.from_wallet_dir item hitem).mp hdir
        rw [hlisted, Option.some.injEq] at hlisted'
        exact .inl (hlisted' ▸ hmem')
      · exact hmem.imp_right fun hopened => List.mem_filter.mpr ⟨hopened, by simpa using hname⟩
    · rintro ⟨names, hlisted, hother⟩
      have hrow : other ∈ items.map Item.name :=
        (h.names other).mpr ⟨names, hlisted, hother.imp_right List.mem_of_mem_filter⟩
      obtain ⟨item, hitem, rfl⟩ := List.mem_map.mp hrow
      refine List.mem_map_of_mem (List.mem_filter.mpr ⟨hitem, ?_⟩)
      rcases hother with hdir | hopened
      · simp [(h.from_wallet_dir item hitem).mpr ⟨names, hlisted, hdir⟩]
      · have hne : item.name ≠ name := by simpa using (List.mem_filter.mp hopened).2
        simp [hne]
  from_wallet_dir item hitem := h.from_wallet_dir item (List.mem_of_mem_filter hitem)

end Rows

/-! ## What the rows keep -/

/-- The new rows keep the balance and the key scheme of the old ones of their names. -/
def Inherits (items items' : List Item) : Prop :=
  ∀ a ∈ items, ∀ b ∈ items', a.name = b.name → a.balance = b.balance ∧ a.keySchemeKind = b.keySchemeKind

theorem Inherits.perm {sorted : List Item} (h : Inherits items items') (hperm : sorted.Perm items') :
    Inherits items sorted := fun a ha b hb => h a ha b (hperm.mem_iff.mp hb)

theorem inherits_of_keyed (hkeyed : Keyed Item.name items)
    (h : ∀ item ∈ items', item ∈ items ∨ item.name ∉ items.map Item.name) : Inherits items items' := by
  intro a ha b hb hname
  rcases h b hb with hb | hb
  · rw [hkeyed.inj ha hb hname]
    exact ⟨rfl, rfl⟩
  · exact absurd (hname ▸ List.mem_map_of_mem ha) hb

theorem Inherits.eq_of_rows (h : Inherits items items')
    (hrows : items.map WalletListModel.rowOf = items'.map WalletListModel.rowOf) : items = items' := by
  induction items generalizing items' with
  | nil => exact (List.map_eq_nil_iff.mp hrows.symm).symm
  | cons a items ih =>
    cases items' with
    | nil => cases hrows
    | cons b items' =>
      rw [List.map_cons, List.map_cons, List.cons.injEq] at hrows
      obtain ⟨hrow, hrows⟩ := hrows
      have hsame := h a (List.mem_cons_self ..) b (List.mem_cons_self ..) (congrArg Prod.fst hrow)
      have htail : items = items' :=
        ih (fun c hc d hd => h c (List.mem_cons_of_mem _ hc) d (List.mem_cons_of_mem _ hd)) hrows
      cases a
      cases b
      simp only [WalletListModel.rowOf, Prod.mk.injEq] at hrow hsame
      rw [htail, hrow.1, hrow.2.1, hrow.2.2, hsame.1, hsame.2]

namespace WalletListModel

theorem applyUpdatedItems_eq (h : Inherits m.m_items items) :
    m.applyUpdatedItems items = { m with m_items := items } := by
  unfold applyUpdatedItems
  split
  next hrows => rw [← h.eq_of_rows hrows]
  next => rfl

theorem rowOf_withPrevious (m : WalletListModel) (item : Item) : rowOf (m.withPrevious item) = rowOf item := by
  unfold withPrevious
  split <;> rfl

theorem withPrevious_inherits (hkeyed : Keyed Item.name m.m_items) (ha : a ∈ m.m_items)
    (hname : a.name = item.name) : a.balance = (m.withPrevious item).balance ∧
      a.keySchemeKind = (m.withPrevious item).keySchemeKind := by
  unfold withPrevious
  split
  next hnone =>
    have hnot := List.find?_eq_none.mp hnone a (List.mem_reverse.mpr ha)
    exact absurd hname (by simpa using hnot)
  next previous hfind =>
    obtain ⟨hmem, hkey⟩ := Keyed.of_find? hfind
    rw [hkeyed.inj ha (List.mem_reverse.mp hmem) (hname.trans hkey.symm)]
    exact ⟨rfl, rfl⟩

/-! ## Listing -/

theorem withPrevious_name (m : WalletListModel) (item : Item) : (m.withPrevious item).name = item.name :=
  congrArg Prod.fst (rowOf_withPrevious m item)

theorem withPrevious_from_wallet_dir (m : WalletListModel) (item : Item) :
    (m.withPrevious item).from_wallet_dir = item.from_wallet_dir :=
  congrArg (fun row => row.2.2) (rowOf_withPrevious m item)

theorem addOpen_rows (h : Rows (some names) opened items) (name : QString) :
    Rows (some names) (opened ++ [name]) (m.addOpen items name) := by
  unfold addOpen
  split
  next hany =>
    obtain ⟨item, hitem, hname⟩ := List.any_eq_true.mp hany
    refine h.opened_snoc (.inr (List.mem_map.mpr ⟨item, hitem, ?_⟩))
    simpa using hname
  next hnone =>
    have hnew : (m.withPrevious { name }).name ∉ items.map Item.name := by
      rw [withPrevious_name]
      intro hmem
      obtain ⟨item, hitem, hname⟩ := List.mem_map.mp hmem
      exact hnone (List.any_eq_true.mpr ⟨item, hitem, by simpa using hname⟩)
    have hsnoc := h.snoc hnew (withPrevious_from_wallet_dir ..)
    rwa [withPrevious_name] at hsnoc

theorem mem_addOpen (hitem : item ∈ m.addOpen items name) :
    item ∈ items ∨ item = m.withPrevious { name } := by
  unfold addOpen at hitem
  split at hitem
  next => exact .inl hitem
  next => simpa using hitem

theorem foldl_addOpen {more : List QString} (h : Rows (some names) opened items)
    (hprevious : ∀ item ∈ items, ∃ other, item = m.withPrevious other) :
    Rows (some names) (opened ++ more) (more.foldl m.addOpen items) ∧
      ∀ item ∈ more.foldl m.addOpen items, ∃ other, item = m.withPrevious other := by
  induction more generalizing opened items with
  | nil => simpa using ⟨h, hprevious⟩
  | cons name more ih =>
    rw [List.append_cons]
    refine ih (addOpen_rows h name) fun item hitem => ?_
    rcases mem_addOpen hitem with hitem | rfl
    · exact hprevious item hitem
    · exact ⟨_, rfl⟩

theorem listed_rows (m : WalletListModel) {entries : List (QString × QString)}
    (hentries : (entries.map Prod.fst).Nodup) :
    Rows (some (entries.map Prod.fst)) [] (entries.map m.listedItem) := by
  have hnames : (entries.map m.listedItem).map Item.name = entries.map Prod.fst := by
    rw [List.map_map]
    exact List.map_congr_left fun entry _ => withPrevious_name ..
  refine ⟨?_, fun name => ?_, fun item hitem => ?_⟩
  · unfold Keyed
    rw [hnames]
    exact hentries
  · rw [hnames]
    simp
  · refine iff_of_true ?_ ⟨_, rfl, hnames ▸ List.mem_map_of_mem hitem⟩
    obtain ⟨entry, -, rfl⟩ := List.mem_map.mp hitem
    exact withPrevious_from_wallet_dir ..

theorem listWalletDir_eq (foldCase : QString → List Nat) (hkeyed : Keyed Item.name m.m_items)
    {entries : List (QString × QString)} (hentries : (entries.map Prod.fst).Nodup) :
    ∃ items, Rows (some (entries.map Prod.fst)) m.m_open_wallet_names items ∧ Inherits m.m_items items ∧
      m.listWalletDir foldCase entries = { m with
        m_items := sortItems foldCase m.m_open_wallet_names items
        m_wallet_dir_loaded := true } := by
  have hlisted : ∀ item ∈ entries.map m.listedItem, ∃ other, item = m.withPrevious other := by
    intro item hitem
    obtain ⟨entry, -, rfl⟩ := List.mem_map.mp hitem
    exact ⟨_, rfl⟩
  obtain ⟨hrows, hprevious⟩ := foldl_addOpen (listed_rows m hentries) hlisted
  have hinherits : Inherits m.m_items (m.m_open_wallet_names.foldl m.addOpen (entries.map m.listedItem)) := by
    intro a ha b hb hname
    obtain ⟨other, rfl⟩ := hprevious b hb
    exact withPrevious_inherits hkeyed ha (hname.trans (withPrevious_name ..))
  refine ⟨_, hrows, hinherits, ?_⟩
  simp only [listWalletDir, applyUpdatedItems_eq (hinherits.perm (sortItems_perm ..))]

/-! ## Opening and closing -/

theorem opened_rows (h : Rows listed m.m_open_wallet_names m.m_items)
    (hloaded : m.m_wallet_dir_loaded = listed.isSome) (name : QString)
    (hitems : items = if m.m_wallet_dir_loaded && !m.m_items.any (·.name = name) then
      m.m_items ++ [{ name := name }] else m.m_items) :
    Rows listed (m.m_open_wallet_names ++ [name]) items ∧ Inherits m.m_items items := by
  have hany : m.m_items.any (·.name = name) = true ↔ name ∈ m.m_items.map Item.name := by
    simp [List.any_eq_true]
  subst hitems
  split
  next hnew =>
    rw [Bool.and_eq_true, Bool.not_eq_true', ← Bool.not_eq_true, hany, hloaded] at hnew
    obtain ⟨names, rfl⟩ := Option.isSome_iff_exists.mp hnew.1
    have hrow : Rows (some names) (m.m_open_wallet_names ++ [name]) (m.m_items ++ [{ name := name }]) :=
      @Rows.snoc _ _ _ { name := name } h hnew.2 rfl
    refine ⟨hrow, inherits_of_keyed h.keyed fun item hitem => ?_⟩
    rcases List.mem_append.mp hitem with hitem | hitem
    · exact .inl hitem
    · rw [List.mem_singleton.mp hitem]
      exact .inr hnew.2
  next hold =>
    refine ⟨h.opened_snoc ?_, inherits_of_keyed h.keyed fun item hitem => .inl hitem⟩
    rw [Bool.and_eq_true, Bool.not_eq_true', ← Bool.not_eq_true, hany, hloaded, not_and, not_not] at hold
    cases listed with
    | none => exact .inl rfl
    | some names => exact .inr (hold rfl)

theorem setWalletOpen_eq (foldCase : QString → List Nat) (h : Rows listed m.m_open_wallet_names m.m_items)
    (hloaded : m.m_wallet_dir_loaded = listed.isSome) (name : QString) (loaded : Bool) :
    ∃ opened items, Rows listed opened items ∧ Inherits m.m_items items ∧
      (∀ other, other ∈ opened ↔
        if loaded then other = name ∨ other ∈ m.m_open_wallet_names
        else other ∈ m.m_open_wallet_names ∧ other ≠ name) ∧
      m.setWalletOpen foldCase name loaded = { m with
        m_items := sortItems foldCase opened items
        m_open_wallet_names := opened
        m_loading_wallet := if m.m_loading_wallet = name then [] else m.m_loading_wallet
        m_load_error := if m.m_load_error.1 = name then ([], []) else m.m_load_error } := by
  cases loaded with
  | false =>
    have hinherits : Inherits m.m_items
        (m.m_items.filter fun item => !(item.name = name && !item.from_wallet_dir)) :=
      inherits_of_keyed h.keyed fun item hitem => .inl (List.mem_of_mem_filter hitem)
    refine ⟨_, _, h.closed name, hinherits, by simp, ?_⟩
    unfold setWalletOpen
    exact applyUpdatedItems_eq (hinherits.perm (sortItems_perm ..))
  | true =>
    let opened := if name ∈ m.m_open_wallet_names then m.m_open_wallet_names else m.m_open_wallet_names ++ [name]
    have hopened : ∀ other, other ∈ opened ↔ other = name ∨ other ∈ m.m_open_wallet_names := by
      intro other
      by_cases hname : name ∈ m.m_open_wallet_names
      · simp only [opened, if_pos hname]
        exact ⟨.inr, fun h => h.elim (fun heq => heq ▸ hname) id⟩
      · simp [opened, if_neg hname, or_comm]
    obtain ⟨hrows, hinherits⟩ := opened_rows h hloaded name rfl
    refine ⟨opened, _, hrows.opened_congr fun other => ?_, hinherits, by simpa using hopened, ?_⟩
    · rw [hopened, List.mem_append, List.mem_singleton, or_comm]
    · unfold setWalletOpen
      exact applyUpdatedItems_eq (hinherits.perm (sortItems_perm ..))

/-! ## Balances -/

section Info

variable {balance keySchemeKind : Int}

theorem map_rowOf_setInfo (name : QString) (balance keySchemeKind : Int) (items : List Item) :
    (setInfo name balance keySchemeKind items).map rowOf = items.map rowOf := by
  induction items with
  | nil => rfl
  | cons item items ih =>
    unfold setInfo
    split
    next => rw [List.map_cons, ih, List.map_cons]
    next => rfl

theorem mem_setInfo (hitem : item ∈ setInfo name balance keySchemeKind items) :
    item.name = name ∨ item ∈ items := by
  induction items with
  | nil => exact .inr hitem
  | cons first items ih =>
    unfold setInfo at hitem
    split at hitem
    next =>
      rcases List.mem_cons.mp hitem with rfl | hitem
      · exact .inr (List.mem_cons_self ..)
      · exact (ih hitem).imp_right (List.mem_cons_of_mem _)
    next hname =>
      rcases List.mem_cons.mp hitem with rfl | hitem
      · exact .inl (not_not.mp hname)
      · exact .inr (List.mem_cons_of_mem _ hitem)

theorem setInfo_set (hkeyed : Keyed Item.name items)
    (hitem : item ∈ setInfo name balance keySchemeKind items) (hname : item.name = name) :
    item.balance = some balance ∧ item.keySchemeKind = keySchemeKind := by
  induction items with
  | nil => cases hitem
  | cons first items ih =>
    obtain ⟨hfirst, hrest⟩ := List.nodup_cons.mp hkeyed
    unfold setInfo at hitem
    split at hitem
    next hother =>
      rcases List.mem_cons.mp hitem with rfl | hitem
      · exact absurd hname hother
      · exact ih hrest hitem
    next hsame =>
      rcases List.mem_cons.mp hitem with rfl | hitem
      · exact ⟨rfl, rfl⟩
      · exact absurd (List.mem_map.mpr ⟨item, hitem, hname.trans (not_not.mp hsame).symm⟩) hfirst

end Info

/-! ## Every call -/

/-- The rows are those of the wallets listed or open, in their order. -/
structure Shape (foldCase : QString → List Nat) (listed : Option (List QString)) (m : WalletListModel) : Prop where
  rows : Rows listed m.m_open_wallet_names m.m_items
  sorted : m.m_items.Pairwise fun a b => itemLess foldCase m.m_open_wallet_names a b = true
  loaded : m.m_wallet_dir_loaded = listed.isSome

theorem shape_empty (foldCase : QString → List Nat) : Shape foldCase none {} :=
  ⟨Rows.empty, List.Pairwise.nil, rfl⟩

/-- The names that a call lists. -/
def listing : Event → Option (List QString)
  | .listWalletDir entries => some (entries.map Prod.fst)
  | _ => none

theorem Shape.setTransientState (h : Shape foldCase listed m) (name : QString) (error : Option QString) :
    Shape foldCase listed (m.setTransientState name error) := by
  cases error with
  | none => exact ⟨h.rows, h.sorted, h.loaded⟩
  | some error => exact ⟨h.rows, h.sorted, h.loaded⟩

theorem Shape.setWalletOpen (h : Shape foldCase listed m) (name : QString) (loaded : Bool) :
    Shape foldCase listed (m.setWalletOpen foldCase name loaded) := by
  obtain ⟨opened, items, hrows, -, -, hopen⟩ := setWalletOpen_eq foldCase h.rows h.loaded name loaded
  rw [hopen]
  exact ⟨hrows.perm (sortItems_perm ..), sortItems_sorted hrows.keyed, h.loaded⟩

theorem Shape.setWalletInfo (h : Shape foldCase listed m) (name : QString) (balance keySchemeKind : Int) :
    Shape foldCase listed (m.setWalletInfo name balance keySchemeKind) := by
  unfold WalletListModel.setWalletInfo
  split
  next => exact h
  next =>
    have hrows := map_rowOf_setInfo name balance keySchemeKind m.m_items
    refine ⟨h.rows.congr hrows, ?_, h.loaded⟩
    -- Only the structure of the rows is compared.
    have hsorted := h.sorted
    let less (a b : QString × QString × Bool) : Prop :=
      itemLess foldCase m.m_open_wallet_names { name := a.1, format := a.2.1 } { name := b.1, format := b.2.1 } = true
    have hless : ∀ l : List Item, (l.map rowOf).Pairwise less ↔
        l.Pairwise fun a b => itemLess foldCase m.m_open_wallet_names a b = true := fun l => List.pairwise_map
    rw [← hless] at hsorted ⊢
    rwa [hrows]

theorem Shape.step (h : Shape foldCase listed m) (e : Event) (he : ∀ names, listing e = some names → names.Nodup) :
    Shape foldCase ((listing e).or listed) (m.step foldCase e) := by
  cases e with
  | listWalletDir entries =>
    obtain ⟨items, hrows, -, hlist⟩ := listWalletDir_eq foldCase h.rows.keyed (he _ rfl)
    simp only [WalletListModel.step, hlist]
    exact ⟨hrows.perm (sortItems_perm ..), sortItems_sorted hrows.keyed, rfl⟩
  | setWalletLoadState name state error =>
    simp only [WalletListModel.step, setWalletLoadState]
    split
    next => exact h
    next =>
      cases state with
      | Closed => exact h.setWalletOpen name false
      | Open => exact h.setWalletOpen name true
      | Loading => exact h.setTransientState name none
      | LoadError => exact h.setTransientState name (some error)
  | setWalletInfo name balance keySchemeKind => exact h.setWalletInfo name balance keySchemeKind

theorem Shape.step_info (h : Shape foldCase listed m) {e : Event}
    (he : ∀ names, listing e = some names → names.Nodup) (hname : name ∈ m.m_items.map Item.name)
    (hset : ∀ balance keySchemeKind, e ≠ .setWalletInfo name balance keySchemeKind)
    {balance : Option Int} {keySchemeKind : Int}
    (hinfo : ∀ item ∈ m.m_items, item.name = name → item.balance = balance ∧ item.keySchemeKind = keySchemeKind) :
    ∀ item ∈ (m.step foldCase e).m_items, item.name = name →
      item.balance = balance ∧ item.keySchemeKind = keySchemeKind := by
  obtain ⟨a, ha, rfl⟩ := List.mem_map.mp hname
  have hinherits : ∀ {items : List Item}, Inherits m.m_items items → ∀ item ∈ items, item.name = a.name →
      item.balance = balance ∧ item.keySchemeKind = keySchemeKind := by
    intro items hitems item hitem heq
    have hsame := hitems a ha item hitem heq.symm
    rw [← hsame.1, ← hsame.2]
    exact hinfo a ha rfl
  cases e with
  | listWalletDir entries =>
    obtain ⟨items, -, hitems, hlist⟩ := listWalletDir_eq foldCase h.rows.keyed (he _ rfl)
    simp only [WalletListModel.step, hlist]
    exact hinherits (hitems.perm (sortItems_perm ..))
  | setWalletLoadState other state error =>
    have hopen : ∀ loaded, Inherits m.m_items (m.setWalletOpen foldCase other loaded).m_items := by
      intro loaded
      obtain ⟨opened, items, -, hitems, -, hopen⟩ := setWalletOpen_eq foldCase h.rows h.loaded other loaded
      rw [hopen]
      exact hitems.perm (sortItems_perm ..)
    simp only [WalletListModel.step, WalletListModel.setWalletLoadState]
    split
    next => exact hinfo
    next =>
      cases state with
      | Closed => exact hinherits (hopen false)
      | Open => exact hinherits (hopen true)
      | Loading => exact hinfo
      | LoadError => exact hinfo
  | setWalletInfo other newBalance newKind =>
    simp only [WalletListModel.step, WalletListModel.setWalletInfo]
    split
    next => exact hinfo
    next =>
      intro item hitem heq
      rcases mem_setInfo hitem with hother | hold
      · obtain rfl : a.name = other := heq.symm.trans hother
        exact absurd rfl (hset newBalance newKind)
      · exact hinfo item hold heq

end WalletListModel

end GuiQml.WalletList
