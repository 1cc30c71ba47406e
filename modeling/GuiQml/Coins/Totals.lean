import GuiQml.Coins.Selection

/-!
# The numbers beside the coins

The page reads a number or a mark again where it is told that it changed. What is told after each change is
enough for the page to show what the model says.
-/

namespace GuiQml.Coins

variable {ω δ : Type} {core : CoreWallet ω δ} {qt : Qt} {m m' : CoinsListModel ω}

/-! ## The numbers -/

namespace CoinsListModel

section Functions

variable (m : CoinsListModel ω)

def coinCount : Nat := m.m_coins.length

def lockedCoinsCount : Nat := m.m_coins.countP (·.locked)

def totalSatoshi : Int := (m.m_coins.map Coin.amount).sum

def lockedSatoshi : Int := ((m.m_coins.filter (·.locked)).map Coin.amount).sum

def availableMinAmount : Int := (m.m_coins.map Coin.amount).min?.getD 0

def availableMaxAmount : Int := (m.m_coins.map Coin.amount).max?.getD 0

/-- `SelectedRole`. -/
def isSelectedCoin (coin : Coin) : Bool := coin.outpoint ∈ m.m_wallet_model.selected

end Functions

end CoinsListModel

/-! ## What the page is told -/

/-- The signals after which something is read again. -/
inductive Notice
  | modelReset
  /-- `dataChanged` of all rows, for `SelectedRole`. -/
  | selectedRole
  | coinCountChanged
  | selectedCoinsCountChanged

namespace CoinsListModel

section Functions

variable (m : CoinsListModel ω)

/-- What `update` emits. -/
def updated : List Notice := [.modelReset, .coinCountChanged, .selectedCoinsCountChanged]

def refreshSelection : List Notice := [.selectedRole, .selectedCoinsCountChanged]

/-- What a setter of the view emits. -/
def viewNotices (view : View) : List Notice := if m.view = view then [] else [.modelReset]

def toggleNotices (coin_id : QString) : List Notice :=
  match m.m_coins.find? (·.id = coin_id) with
  | none => []
  | some _ => refreshSelection

/-- Each is emitted after the last change of what is read for it. The wallet model knows the list, so that
`setSelectedCoins` comes to its `refreshSelection`. -/
def notices : Event ω → List Notice
  | .walletChanged _ => []
  | .clearSelectedCoins => if m.m_wallet_model.selected = ∅ then [] else refreshSelection
  | .update => updated
  | .setSearchText v => m.viewNotices { m.view with m_search := v }
  | .setSortBy v => (SortBy.ofString v).elim [] fun v => m.viewNotices { m.view with m_sort := v }
  | .setSortDescending v => m.viewNotices { m.view with m_descending := v }
  | .setFilter v => (Filter.ofString v).elim [] fun v => m.viewNotices { m.view with m_filter := v }
  | .setGroupBy v => (GroupBy.ofString v).elim [] fun v => m.viewNotices { m.view with m_group := v }
  | .setMinAmount v => m.viewNotices { m.view with m_min_amount := if v < 0 then -1 else v }
  | .setMaxAmount v => m.viewNotices { m.view with m_max_amount := if v < 0 then -1 else v }
  | .toggleCoinSelection row =>
    if row < 0 ∨ m.rowCount ≤ row then [] else m.toggleNotices (m.coinAt (m.m_visible.getD row.toNat 0)).id
  | .toggleCoinSelectionById coin_id => m.toggleNotices coin_id
  | .beginSelection => if m.m_previous_selection.isSome then [] else updated
  | .applySelection => []
  | .cancelSelection => if m.m_previous_selection.isSome then refreshSelection else []
  | .setCoinsLocked _ _ => updated

end Functions

end CoinsListModel

/-! ## The page -/

/-- What the page has read. -/
structure Reading where
  /-- The coin of each row, and its mark. -/
  rows : List (Coin × Bool)
  coinCount : Nat
  lockedCoinsCount : Nat
  totalSatoshi : Int
  lockedSatoshi : Int
  availableMinAmount : Int
  availableMaxAmount : Int
  selectedCoinsCount : Nat
  totalSelectedSatoshi : Int

namespace Reading

section Functions

variable (m : CoinsListModel ω) (r : Reading)

def hear : Notice → Reading
  | .modelReset => { r with rows := m.rows.map fun coin => (coin, m.isSelectedCoin coin) }
  | .selectedRole =>
    { r with rows := List.zipWith (fun shown coin => (shown.1, m.isSelectedCoin coin)) r.rows m.rows }
  | .coinCountChanged =>
    { r with
      coinCount := m.coinCount
      lockedCoinsCount := m.lockedCoinsCount
      totalSatoshi := m.totalSatoshi
      lockedSatoshi := m.lockedSatoshi
      availableMinAmount := m.availableMinAmount
      availableMaxAmount := m.availableMaxAmount }
  | .selectedCoinsCountChanged =>
    { r with
      selectedCoinsCount := m.selectedCoinsCount
      totalSelectedSatoshi := m.totalSelectedSatoshi }

/-- All of it, as a page reads it that is opened now. -/
def ofModel : Reading where
  rows := m.rows.map fun coin => (coin, m.isSelectedCoin coin)
  coinCount := m.coinCount
  lockedCoinsCount := m.lockedCoinsCount
  totalSatoshi := m.totalSatoshi
  lockedSatoshi := m.lockedSatoshi
  availableMinAmount := m.availableMinAmount
  availableMaxAmount := m.availableMaxAmount
  selectedCoinsCount := m.selectedCoinsCount
  totalSelectedSatoshi := m.totalSelectedSatoshi

end Functions

end Reading

structure Page (ω : Type) where
  model : CoinsListModel ω
  shown : Reading

namespace Page

section Functions

variable (core : CoreWallet ω δ) (qt : Qt)

def step (p : Page ω) (e : Event ω) : Page ω :=
  let model := p.model.step core qt e
  { model, shown := (p.model.notices e).foldl (Reading.hear model) p.shown }

def start (wallet : ω) : Page ω :=
  let model := CoinsListModel.start core qt wallet
  { model, shown := .ofModel model }

end Functions

end Page

/-! ## What is told is enough -/

namespace Reading

theorem foldl_updated (r : Reading) : CoinsListModel.updated.foldl (hear m) r = ofModel m := rfl

/-- Where only the selection changes, the rows are read for their marks. -/
theorem foldl_refreshSelection (hcoins : m'.m_coins = m.m_coins) (hvisible : m'.m_visible = m.m_visible) :
    CoinsListModel.refreshSelection.foldl (hear m') (ofModel m) = ofModel m' := by
  have hrows : m'.rows = m.rows := by
    unfold CoinsListModel.rows CoinsListModel.coinAt
    rw [hcoins, hvisible]
  have hmarks (rows : List Coin) : List.zipWith (fun shown coin => (shown.1, m'.isSelectedCoin coin))
      (rows.map fun coin => (coin, m.isSelectedCoin coin)) rows =
        rows.map fun coin => (coin, m'.isSelectedCoin coin) := by
    induction rows with
    | nil => rfl
    | cons coin rows ih => rw [List.map_cons, List.zipWith_cons_cons, ih, List.map_cons]
  have hmarked := hmarks m.rows
  rw [← hrows] at hmarked
  unfold CoinsListModel.refreshSelection ofModel
  simp only [List.foldl_cons, List.foldl_nil, hear]
  rw [← hrows, hmarked]
  unfold CoinsListModel.coinCount CoinsListModel.lockedCoinsCount CoinsListModel.totalSatoshi
    CoinsListModel.lockedSatoshi CoinsListModel.availableMinAmount CoinsListModel.availableMaxAmount
  rw [hcoins]

theorem hear_modelReset (hsame : m.Same m') : (ofModel m).hear m' .modelReset = ofModel m' := by
  unfold hear ofModel CoinsListModel.coinCount CoinsListModel.lockedCoinsCount CoinsListModel.totalSatoshi
    CoinsListModel.lockedSatoshi CoinsListModel.availableMinAmount CoinsListModel.availableMaxAmount
    CoinsListModel.selectedCoinsCount CoinsListModel.totalSelectedSatoshi CoinsListModel.selectedCoins
  rw [hsame.wallet, hsame.coins]

theorem foldl_setView (view : View) :
    (m.viewNotices view).foldl (hear (m.setView qt view)) (ofModel m) = ofModel (m.setView qt view) := by
  have hsame : m.Same (m.setView qt view) := CoinsListModel.same_setView m view
  unfold CoinsListModel.viewNotices
  by_cases hview : m.view = view
  · rw [if_pos hview, CoinsListModel.setView, if_pos hview]
    rfl
  · rw [if_neg hview]
    exact hear_modelReset hsame

theorem foldl_setOption {α : Type} (v : Option α) (view : α → View) :
    (v.elim [] fun v => m.viewNotices (view v)).foldl (hear (v.elim m fun v => m.setView qt (view v))) (ofModel m) =
      ofModel (v.elim m fun v => m.setView qt (view v)) := by
  cases v with
  | none => rfl
  | some v => exact foldl_setView (view v)

theorem foldl_toggleById (coin_id : QString) :
    (m.toggleNotices coin_id).foldl (hear (m.toggleCoinSelectionById coin_id).1) (ofModel m) =
      ofModel (m.toggleCoinSelectionById coin_id).1 := by
  unfold CoinsListModel.toggleNotices CoinsListModel.toggleCoinSelectionById
  cases m.m_coins.find? (·.id = coin_id) with
  | none => rfl
  | some coin => exact foldl_refreshSelection rfl rfl

theorem foldl_toggleRow (row : Int) :
    (if row < 0 ∨ m.rowCount ≤ row then []
      else m.toggleNotices (m.coinAt (m.m_visible.getD row.toNat 0)).id).foldl
      (hear (m.toggleCoinSelection row)) (ofModel m) = ofModel (m.toggleCoinSelection row) := by
  unfold CoinsListModel.toggleCoinSelection
  split
  · rfl
  · exact foldl_toggleById _

theorem foldl_clearSelectedCoins :
    (if m.m_wallet_model.selected = ∅ then [] else CoinsListModel.refreshSelection).foldl
      (hear { m with m_wallet_model := m.m_wallet_model.clearSelectedCoins }) (ofModel m) =
      ofModel { m with m_wallet_model := m.m_wallet_model.clearSelectedCoins } := by
  split
  · rename_i hnone
    have hsame : m.m_wallet_model.clearSelectedCoins = m.m_wallet_model := by
      unfold WalletQmlModel.clearSelectedCoins
      rw [← hnone]
    rw [hsame]
    rfl
  · exact foldl_refreshSelection rfl rfl

theorem foldl_beginSelection :
    (if m.m_previous_selection.isSome then [] else CoinsListModel.updated).foldl
      (hear (m.beginSelection core qt)) (ofModel m) = ofModel (m.beginSelection core qt) := by
  unfold CoinsListModel.beginSelection
  split
  · rfl
  · exact foldl_updated _

theorem foldl_cancelSelection :
    (if m.m_previous_selection.isSome then CoinsListModel.refreshSelection else []).foldl
      (hear m.cancelSelection) (ofModel m) = ofModel m.cancelSelection := by
  unfold CoinsListModel.cancelSelection
  cases m.m_previous_selection with
  | none => rfl
  | some previous => exact foldl_refreshSelection rfl rfl

theorem foldl_step (m : CoinsListModel ω) (e : Event ω) :
    (m.notices e).foldl (hear (m.step core qt e)) (ofModel m) = ofModel (m.step core qt e) := by
  cases e with
  | walletChanged wallet => rfl
  | clearSelectedCoins => exact foldl_clearSelectedCoins
  | update => exact foldl_updated _
  | setSearchText v => exact foldl_setView _
  | setSortBy v => exact foldl_setOption _ _
  | setSortDescending v => exact foldl_setView _
  | setFilter v => exact foldl_setOption _ _
  | setGroupBy v => exact foldl_setOption _ _
  | setMinAmount v => exact foldl_setView _
  | setMaxAmount v => exact foldl_setView _
  | toggleCoinSelection row => exact foldl_toggleRow row
  | toggleCoinSelectionById coin_id => exact foldl_toggleById coin_id
  | beginSelection => exact foldl_beginSelection
  | applySelection => rfl
  | cancelSelection => exact foldl_cancelSelection
  | setCoinsLocked ids locked => exact foldl_updated _

end Reading

/-! ## What the numbers are -/

theorem sum_split (p : Coin → Bool) (coins : List Coin) :
    ((coins.filter p).map Coin.amount).sum + ((coins.filter fun coin => !p coin).map Coin.amount).sum =
      (coins.map Coin.amount).sum := by
  have hperm := ((List.filter_append_perm p coins).map Coin.amount).sum_eq
  rwa [List.map_append, List.sum_append] at hperm

theorem range_coins {coin : Coin} (hcoin : coin ∈ m.m_coins) :
    m.availableMinAmount ≤ coin.amount ∧ coin.amount ≤ m.availableMaxAmount := by
  have hamount : coin.amount ∈ m.m_coins.map Coin.amount := List.mem_map_of_mem hcoin
  unfold CoinsListModel.availableMinAmount CoinsListModel.availableMaxAmount
  constructor
  · cases hmin : (m.m_coins.map Coin.amount).min? with
    | none => simp [List.min?_eq_none_iff.1 hmin] at hamount
    | some least => exact (List.min?_eq_some_iff.1 hmin).2 _ hamount
  · cases hmax : (m.m_coins.map Coin.amount).max? with
    | none => simp [List.max?_eq_none_iff.1 hmax] at hamount
    | some most => exact (List.max?_eq_some_iff.1 hmax).2 _ hamount

theorem shows_whole_range (v : View) {coin : Coin} {low high : Int} (hlow : low ≤ coin.amount)
    (hhigh : coin.amount ≤ high) :
    View.shows qt { v with m_min_amount := low, m_max_amount := high } coin =
      View.shows qt { v with m_min_amount := -1, m_max_amount := -1 } coin := by
  unfold View.shows
  simp [not_lt.2 hlow, not_lt.2 hhigh]

theorem totalSelected_rows (hshown : m.Shown qt) :
    m.totalSelectedSatoshi = ((m.rows.filter m.isSelectedCoin).map Coin.amount).sum +
      ((m.selectedCoins.filter fun coin => !m.view.shows qt coin).map Coin.amount).sum := by
  have hrows := ((hshown.rows_perm.filter m.isSelectedCoin).map Coin.amount).sum_eq
  have hcomm : (m.m_coins.filter (m.view.shows qt)).filter m.isSelectedCoin =
      m.selectedCoins.filter (m.view.shows qt) := by
    unfold CoinsListModel.selectedCoins
    rw [List.filter_filter, List.filter_filter]
    refine List.filter_congr fun coin _ => ?_
    exact Bool.and_comm _ _
  rw [hrows, hcomm, sum_split]
  rfl

/-- In every run the page shows what the model says, in all its numbers and all its marks. What is spendable is the
sum of the coins that are not locked, what is selected is the sum of the marked rows and of the selected coins that
the settings hide, and the whole range of amounts hides no coin. -/
theorem page_run (honce : CoinsListModel.ListsOnce core) {wallet : ω} {p : Page ω}
    (h : Reach.Reaches (Page.step core qt) (fun _ _ => True) (Page.start core qt wallet) p) :
    p.shown = .ofModel p.model ∧
    p.shown.totalSatoshi - p.shown.lockedSatoshi =
      ((p.model.m_coins.filter fun coin => !coin.locked).map Coin.amount).sum ∧
    p.shown.totalSelectedSatoshi = ((p.shown.rows.filter (·.2)).map (·.1.amount)).sum +
      ((p.model.selectedCoins.filter fun coin => !p.model.view.shows qt coin).map Coin.amount).sum ∧
    ∀ coin ∈ p.model.m_coins, ∀ v : View,
      View.shows qt { v with
        m_min_amount := p.shown.availableMinAmount
        m_max_amount := p.shown.availableMaxAmount } coin =
      View.shows qt { v with m_min_amount := -1, m_max_amount := -1 } coin := by
  obtain ⟨hmodel, hshown⟩ : p.model.Shown qt ∧ p.shown = .ofModel p.model := by
    refine h.invariant (I := fun p => p.model.Shown qt ∧ p.shown = .ofModel p.model)
      ⟨CoinsListModel.shown_update honce _, rfl⟩ fun p e hp _ => ⟨hp.1.step honce e, ?_⟩
    unfold Page.step
    dsimp only
    rw [hp.2]
    exact Reading.foldl_step p.model e
  refine ⟨hshown, ?_, ?_, fun coin hcoin v => ?_⟩
  · have hsum := sum_split (·.locked) p.model.m_coins
    rw [hshown]
    exact sub_eq_iff_eq_add'.2 hsum.symm
  · rw [hshown]
    refine (totalSelected_rows hmodel).trans (congrArg (· + _) ?_)
    simp only [Reading.ofModel, List.filter_map, List.map_map]
    rfl
  · have hrange := range_coins hcoin
    rw [hshown]
    exact shows_whole_range v hrange.1 hrange.2

/-- Both coins are selected, and the range of amounts hides the smaller one. -/
def hidden : List (Event (List COutPoint)) :=
  [.toggleCoinSelectionById (COutPoint.id ⟨zeroTxid, 0⟩), .toggleCoinSelectionById (COutPoint.id ⟨zeroTxid, 1⟩),
    .setMinAmount 1500]

theorem page_run_toggled :
    let p := hidden.foldl (Page.step CoinsListModel.plainCore CoinsListModel.plainQt)
      (Page.start CoinsListModel.plainCore CoinsListModel.plainQt [])
    p.shown.selectedCoinsCount = 2 ∧ p.shown.rows.map (fun row => (row.1.amount, row.2)) = [(2000, true)] ∧
      p.shown.totalSelectedSatoshi = 2000 + 1000 := by
  intro p
  have hreaches : Reach.Reaches (Page.step CoinsListModel.plainCore CoinsListModel.plainQt) (fun _ _ => True)
      (Page.start CoinsListModel.plainCore CoinsListModel.plainQt []) p :=
    Reach.Reaches.events (fun _ _ => trivial) .refl hidden
  obtain ⟨hshown, -, htotal, -⟩ := page_run CoinsListModel.plainCore_listsOnce hreaches
  have hvisible : p.model.m_visible = Comparator.sortBy
      (fun a b => p.model.view.less CoinsListModel.plainQt (p.model.coinAt a) (p.model.coinAt b)) [1] := rfl
  have hrows : p.shown.rows = [(p.model.coinAt 1, true)] := by
    rw [hshown, Reading.ofModel, CoinsListModel.rows, hvisible, Comparator.sortBy, List.mergeSort_singleton]
    decide
  refine ⟨by rw [hshown]; decide, by rw [hrows]; decide, ?_⟩
  rw [htotal, hrows]
  decide

end GuiQml.Coins
