import GuiQml.Coins.Model
import GuiQml.Lib.Keyed
import GuiQml.Lib.Reach
import Mathlib.Data.List.Sort

/-!
# The rows of the coins

The function that `std::sort` is given says what a comparison says, so that the rows are determined. The settings
of the view and the coins change the rows only through `rebuildView`.
-/

namespace GuiQml.Coins

open Std Comparator

variable {ω δ : Type} {core : CoreWallet ω δ} {qt : Qt} {v : View} {x y : Coin} {m : CoinsListModel ω}

/-! ## What the rows are compared by -/

def COutPoint.compare : COutPoint → COutPoint → Ordering := compareLex (compareOn (·.hash)) (compareOn (·.n))

def Qt.collate (qt : Qt) (a b : QString) : Ordering := Ord.compare (qt.localeAwareCompare a b) 0

namespace View

def groupCompare (qt : Qt) (v : View) : Coin → Coin → Ordering :=
  if v.m_group = .address then compareOn (·.address) else directed v.m_descending (compareOn (v.dateKey qt))

def sortCompare (qt : Qt) (v : View) : Coin → Coin → Ordering :=
  match v.m_sort with
  | .amount => compareOn (·.amount)
  | .label => on qt.collate fun coin => qt.toCaseFolded coin.note
  | .date => compareOn (·.date)

def compare (qt : Qt) (v : View) : Coin → Coin → Ordering :=
  compareLex (v.groupCompare qt)
    (compareLex (directed v.m_descending (v.sortCompare qt)) (on COutPoint.compare Coin.outpoint))

end View

instance : TransCmp COutPoint.compare := inferInstanceAs (TransCmp (compareLex _ _))

instance (qt : Qt) (v : View) : TransCmp (v.groupCompare qt) := by
  unfold View.groupCompare
  split <;> infer_instance

instance (qt : Qt) [TransCmp qt.collate] (v : View) : TransCmp (v.sortCompare qt) := by
  unfold View.sortCompare
  split <;> infer_instance

instance (qt : Qt) [TransCmp qt.collate] (v : View) : TransCmp (v.compare qt) :=
  inferInstanceAs (TransCmp (compareLex _ (compareLex _ _)))

theorem isLT_iff {o : Ordering} : o.isLT = true ↔ o = .lt := by cases o <;> simp

theorem outpoint_less_iff {a b : COutPoint} : a.less b = true ↔ a.compare b = .lt := by
  unfold COutPoint.less COutPoint.compare
  rw [compareLex, Ordering.then_eq_lt]
  by_cases h : a.hash = b.hash
  · simp [h, compareOn, Nat.compare_eq_lt]
  · simp [h, compareOn]

theorem outpoint_eq_of_compare {a b : COutPoint} (h : a.compare b = .eq) : a = b := by
  obtain ⟨hhash, hn⟩ := compareLex_eq_eq.1 h
  cases a
  cases b
  simp only [compareOn] at hhash hn
  rw [LawfulEqOrd.eq_of_compare hhash, LawfulEqOrd.eq_of_compare hn]

theorem cmp_sign (qt : Qt) (v : View) (x y : Coin) :
    (v.cmp qt x y = 0 ↔ v.sortCompare qt x y = .eq) ∧ (v.cmp qt x y < 0 ↔ v.sortCompare qt x y = .lt) ∧
      (0 < v.cmp qt x y ↔ v.sortCompare qt x y = .gt) := by
  have hsign (a b : Int) : let c : Int := if a < b then -1 else if b < a then 1 else 0
      (c = 0 ↔ compare a b = .eq) ∧ (c < 0 ↔ compare a b = .lt) ∧ (0 < c ↔ compare a b = .gt) := by
    rw [Int.compare_eq_eq, Int.compare_eq_lt, Int.compare_eq_gt]
    dsimp only
    split <;> [skip; split] <;> omega
  unfold View.cmp View.sortCompare
  cases v.m_sort with
  | date => exact hsign x.date y.date
  | amount => exact hsign x.amount y.amount
  | label => simp [on, Qt.collate, Int.compare_eq_lt, Int.compare_eq_gt]

theorem compare_group_iff (qt : Qt) (v : View) (x y : Coin) :
    (v.groupCompare qt x y = .eq ↔
      if v.m_group = .address then x.address = y.address else v.dateKey qt x = v.dateKey qt y) := by
  unfold View.groupCompare
  split
  · exact LawfulEqOrd.compare_eq_iff_eq
  · rw [directed_eq_iff]
    exact LawfulEqOrd.compare_eq_iff_eq

theorem group_less_iff (qt : Qt) (v : View) (x y : Coin) :
    (if v.m_group = .address then QString.less x.address y.address
      else if v.m_descending then QString.less (v.dateKey qt y) (v.dateKey qt x)
      else QString.less (v.dateKey qt x) (v.dateKey qt y)) = true ↔ v.groupCompare qt x y = .lt := by
  unfold View.groupCompare QString.less directed
  split
  · simp only [isLT_iff, compareOn]
  · split <;> simp only [isLT_iff, compareOn]

theorem sort_less_iff (qt : Qt) [TransCmp qt.collate] (v : View) (x y : Coin) :
    (if v.cmp qt x y = 0 then x.outpoint.less y.outpoint
      else if v.m_descending then decide (0 < v.cmp qt x y) else decide (v.cmp qt x y < 0)) = true ↔
    compareLex (directed v.m_descending (v.sortCompare qt)) (on COutPoint.compare Coin.outpoint) x y = .lt := by
  obtain ⟨hzero, hneg, hpos⟩ := cmp_sign qt v x y
  rw [compareLex, Ordering.then_eq_lt, directed_eq_iff, directed_eq_swap]
  by_cases heq : v.cmp qt x y = 0
  · have hsort : v.sortCompare qt x y = .eq := hzero.1 heq
    rw [if_pos heq, outpoint_less_iff, hsort]
    simp [on]
  · have hsort : v.sortCompare qt x y ≠ .eq := fun h => heq (hzero.2 h)
    rw [if_neg heq]
    cases v.m_descending <;> simp [hneg, hpos, hsort]

theorem less_follows (qt : Qt) [TransCmp qt.collate] (v : View) : Follows (v.compare qt) (v.less qt) := by
  intro x y
  have hgroup := group_less_iff qt v x y
  have hsame := compare_group_iff qt v x y
  rw [View.compare, compareLex, Ordering.then_eq_lt, ← sort_less_iff]
  unfold View.less
  by_cases haddress : v.m_group = .address
  · simp only [haddress, if_true] at hgroup hsame
    by_cases h : x.address = y.address
    · simp [haddress, h, hsame.2 h]
    · have hne : v.groupCompare qt x y ≠ .eq := fun heq => h (hsame.1 heq)
      simp [haddress, h, hne, hgroup]
  · simp only [haddress, if_false] at hgroup hsame
    by_cases h : v.dateKey qt x = v.dateKey qt y
    · simp [haddress, h, hsame.2 h]
    · have hne : v.groupCompare qt x y ≠ .eq := fun heq => h (hsame.1 heq)
      simp [haddress, h, hne, hgroup]

theorem outpoint_of_compare {qt : Qt} {v : View} (h : v.compare qt x y = .eq) : x.outpoint = y.outpoint := by
  obtain ⟨-, hrest⟩ := compareLex_eq_eq.1 h
  exact outpoint_eq_of_compare (compareLex_eq_eq.1 hrest).2

/-! ## The rows -/

namespace CoinsListModel

/-- Each output of the wallet is listed once. -/
def ListsOnce (core : CoreWallet ω δ) : Prop :=
  ∀ w, ((core.listCoins w).flatMap fun entry => entry.2.map (·.1)).Nodup

theorem keyed_readCoins (h : ListsOnce core) (w : ω) : Keyed Coin.outpoint (readCoins core w) := by
  refine (h w).sublist ?_
  unfold readCoins
  rw [List.map_flatMap]
  induction core.listCoins w with
  | nil => exact List.Sublist.slnil
  | cons entry entries ih =>
    rw [List.flatMap_cons, List.flatMap_cons]
    refine List.Sublist.append ?_ ih
    induction entry.2 with
    | nil => exact List.Sublist.slnil
    | cons output outputs ih =>
      rw [List.filterMap_cons, List.map_cons]
      split
      · exact ih.cons _
      · rename_i coin hcoin
        split at hcoin
        · cases hcoin
        · cases hcoin
          exact ih.cons_cons _

/-- The rows are those of the coins and of the settings as they are. -/
structure Shown (qt : Qt) (m : CoinsListModel ω) : Prop where
  keyed : Keyed Coin.outpoint m.m_coins
  rebuilt : m.m_visible = (m.rebuildView qt).m_visible

theorem shown_update (h : ListsOnce core) (m : CoinsListModel ω) : (m.update core qt).Shown qt :=
  ⟨keyed_readCoins h _, rfl⟩

namespace Shown

theorem setView (h : m.Shown qt) (view : View) : (m.setView qt view).Shown qt := by
  unfold CoinsListModel.setView
  split
  · exact h
  · exact ⟨h.keyed, rfl⟩

theorem setOption {α : Type} (h : m.Shown qt) (v : Option α) (view : α → View) :
    (v.elim m fun v => m.setView qt (view v)).Shown qt := by
  cases v with
  | none => exact h
  | some v => exact h.setView (view v)

theorem frame {m' : CoinsListModel ω} (h : m.Shown qt) (hcoins : m'.m_coins = m.m_coins)
    (hvisible : m'.m_visible = m.m_visible) (hview : m'.view = m.view) : m'.Shown qt := by
  obtain ⟨wallet, coins, visible, previous, view⟩ := m'
  cases hcoins
  cases hvisible
  cases hview
  exact ⟨h.keyed, h.rebuilt⟩

theorem toggleCoinSelectionById (h : m.Shown qt) (coin_id : QString) :
    (m.toggleCoinSelectionById coin_id).1.Shown qt := by
  unfold CoinsListModel.toggleCoinSelectionById
  split <;> exact h.frame rfl rfl rfl

theorem toggleCoinSelection (h : m.Shown qt) (row : Int) : (m.toggleCoinSelection row).Shown qt := by
  unfold CoinsListModel.toggleCoinSelection
  split
  · exact h
  · exact h.toggleCoinSelectionById _

theorem beginSelection (honce : ListsOnce core) (h : m.Shown qt) : (m.beginSelection core qt).Shown qt := by
  unfold CoinsListModel.beginSelection
  split
  · exact h
  · exact (shown_update honce m).frame rfl rfl rfl

theorem cancelSelection (h : m.Shown qt) : m.cancelSelection.Shown qt := by
  unfold CoinsListModel.cancelSelection
  split
  · exact h
  · exact h.frame rfl rfl rfl

theorem step (honce : ListsOnce core) (h : m.Shown qt) (e : Event ω) : (m.step core qt e).Shown qt := by
  cases e with
  | walletChanged wallet => exact h.frame rfl rfl rfl
  | clearSelectedCoins => exact h.frame rfl rfl rfl
  | update => exact shown_update honce m
  | setSearchText v => exact h.setView _
  | setSortBy v => exact h.setOption _ _
  | setSortDescending v => exact h.setView _
  | setFilter v => exact h.setOption _ _
  | setGroupBy v => exact h.setOption _ _
  | setMinAmount v => exact h.setView _
  | setMaxAmount v => exact h.setView _
  | toggleCoinSelection row => exact h.toggleCoinSelection row
  | toggleCoinSelectionById coin_id => exact h.toggleCoinSelectionById coin_id
  | beginSelection => exact h.beginSelection honce
  | applySelection => exact h.frame rfl rfl rfl
  | cancelSelection => exact h.cancelSelection
  | setCoinsLocked ids locked => exact shown_update honce _

end Shown

/-! ## A run -/

theorem shown_run (honce : ListsOnce core) {wallet : ω}
    (h : Reach.Reaches (step core qt) (fun _ _ => True) (start core qt wallet) m) : m.Shown qt :=
  h.invariant (shown_update honce _) fun _ e hshown _ => hshown.step honce e

theorem coinAt_eq {i : Nat} (hi : i < m.m_coins.length) : m.coinAt i = m.m_coins[i] := by
  simp [coinAt, List.getElem?_eq_getElem hi]

/-- The places of the coins that the settings let through. -/
def Places (qt : Qt) (m : CoinsListModel ω) : List Nat :=
  (List.range m.m_coins.length).filter fun i => m.view.shows qt (m.coinAt i)

theorem places_coins (qt : Qt) (m : CoinsListModel ω) :
    (m.Places qt).map m.coinAt = m.m_coins.filter (m.view.shows qt) := by
  have hcoins : (List.range m.m_coins.length).map m.coinAt = m.m_coins := by
    apply List.ext_getElem
    · simp
    · intro i hi hi'
      simp [coinAt_eq hi']
  conv_rhs => rw [← hcoins]
  rw [List.filter_map]
  rfl

theorem distinct_places (hkeyed : Keyed Coin.outpoint m.m_coins) (view : View) :
    Distinct (on (view.compare qt) m.coinAt) (m.Places qt) := by
  have hnodup : (m.Places qt).Nodup := List.nodup_range.filter _
  have hlt : ∀ i ∈ m.Places qt, i < m.m_coins.length := fun i hi => List.mem_range.1 (List.mem_filter.1 hi).1
  refine hnodup.imp_of_mem fun {i j} hi hj hne heq => hne ?_
  have houtpoint := outpoint_of_compare heq
  rw [coinAt_eq (hlt i hi), coinAt_eq (hlt j hj)] at houtpoint
  have hi' : i < (m.m_coins.map Coin.outpoint).length := by simpa using hlt i hi
  have hj' : j < (m.m_coins.map Coin.outpoint).length := by simpa using hlt j hj
  have hij : (m.m_coins.map Coin.outpoint)[i] = (m.m_coins.map Coin.outpoint)[j] := by simpa using houtpoint
  exact (List.Nodup.getElem_inj_iff hkeyed).1 hij

/-- The titles of the groups differ where the dates do. -/
structure Titles (qt : Qt) : Prop where
  month : ∀ a b, qt.localeString a "MMMM yyyy" = qt.localeString b "MMMM yyyy" ↔
    qt.toString a "yyyyMM" = qt.toString b "yyyyMM"
  day : ∀ a b, qt.localeString a "MMM d, yyyy" = qt.localeString b "MMM d, yyyy" ↔
    qt.toString a "yyyyMMdd" = qt.toString b "yyyyMMdd"

theorem groupTitle_iff (htitles : Titles qt) (v : View) (x y : Coin) :
    v.groupTitle qt x = v.groupTitle qt y ↔ v.groupCompare qt x y = .eq := by
  rw [compare_group_iff]
  unfold View.groupTitle View.dateKey
  cases v.m_group with
  | date => simpa using htitles.day x.date y.date
  | month => simpa using htitles.month x.date y.date
  | address => simp

theorem Shown.rows_perm (h : m.Shown qt) : m.rows.Perm (m.m_coins.filter (m.view.shows qt)) := by
  unfold rows
  rw [h.rebuilt, ← places_coins]
  exact (sortBy_perm _ _).map _

/-- In every run the rows are the coins that the settings let through, each once and in the order that is asked
for, and each title heads one group of them and ends one. -/
theorem rows_run [TransCmp qt.collate] (honce : ListsOnce core) (htitles : Titles qt) {wallet : ω}
    (h : Reach.Reaches (step core qt) (fun _ _ => True) (start core qt wallet) m) :
    m.rows.Perm (m.m_coins.filter (m.view.shows qt)) ∧
    m.rows.Nodup ∧
    m.rows.Pairwise (fun x y => m.view.less qt x y = true) ∧
    ∀ coin ∈ m.rows,
      (∃! row, ∃ _ : row < m.rows.length, m.groupFirst qt row = true ∧
        m.view.groupTitle qt m.rows[row] = m.view.groupTitle qt coin) ∧
      ∃! row, ∃ _ : row < m.rows.length, m.groupLast qt row = true ∧
        m.view.groupTitle qt m.rows[row] = m.view.groupTitle qt coin := by
  have hshown := shown_run honce h
  have hperm : m.rows.Perm (m.m_coins.filter (m.view.shows qt)) := hshown.rows_perm
  obtain ⟨hkeyed, hrebuilt⟩ := hshown
  have hfollows : Follows (on (m.view.compare qt) m.coinAt) fun a b => m.view.less qt (m.coinAt a) (m.coinAt b) :=
    fun a b => less_follows qt m.view _ _
  have hsorted : m.rows.Pairwise fun x y => m.view.less qt x y = true := by
    unfold rows
    rw [hrebuilt, List.pairwise_map]
    exact sortBy_strict hfollows (distinct_places hkeyed m.view)
  have htogether : Groups.Together (m.view.groupTitle qt) m.rows := by
    refine Groups.together_of_sorted (fun x _ y _ => groupTitle_iff htitles m.view x y)
      (hsorted.imp fun {x y} hless => ?_)
    have hlt := (less_follows qt m.view x y).1 hless
    rw [View.compare, compareLex, Ordering.then_eq_lt] at hlt
    rcases hlt with hlt | ⟨heq, -⟩
    · rw [hlt]; rfl
    · rw [heq]; rfl
  refine ⟨hperm, hperm.nodup_iff.2 (hkeyed.nodup.filter _), hsorted, fun coin hcoin => ?_⟩
  obtain ⟨row, hrow, rfl⟩ := List.getElem_of_mem hcoin
  exact htogether.one_group hrow

/-! ### Two coins of one day -/

def ascii (text : String) : QString := text.toList.map Char.toNat

/-- A time of 14 November 2023 is written as the text, any other by the number of its day. -/
def plainDate (text : String) (date : Int) : QString :=
  if date / 86400 = 19675 then ascii text else 0 :: number (date / 86400).toNat

def plainQt : Qt where
  contains a b := b <:+: a
  toCaseFolded a := a
  localeAwareCompare a b := if (compare a b).isLT then -1 else if (compare a b).isGT then 1 else 0
  toString date format := plainDate (if format = "yyyyMM" then "202311" else "20231114") date
  localeString date format := plainDate (if format = "MMMM yyyy" then "November 2023" else "Nov 14, 2023") date

/-- The state is the outpoints that are locked. -/
def plainCore : CoreWallet (List COutPoint) QString where
  listCoins _ := [(ascii "bc1", [
    (⟨zeroTxid, 0⟩, ⟨⟨1000, []⟩, 1700000000, false⟩),
    (⟨zeroTxid, 1⟩, ⟨⟨2000, []⟩, 1700000010, false⟩)])]
  getAddressLabel _ _ := []
  isLockedCoin locked o := locked.contains o
  lockCoin locked o := (true, o :: locked)
  unlockCoin locked o := (true, locked.filter (· ≠ o))
  extractDestination _ := none
  encodeDestination destination := destination

theorem plainCore_listsOnce : ListsOnce plainCore := by
  intro w
  show [(⟨zeroTxid, 0⟩ : COutPoint), ⟨zeroTxid, 1⟩].Nodup
  decide

theorem plainDate_iff {text text' : String} (htext : (ascii text).head? ≠ some 0)
    (htext' : (ascii text').head? ≠ some 0) (a b : Int) :
    plainDate text a = plainDate text b ↔ plainDate text' a = plainDate text' b := by
  have hne {t : String} (ht : (ascii t).head? ≠ some 0) (rest : QString) : ascii t ≠ 0 :: rest :=
    fun h => ht (by rw [h]; rfl)
  unfold plainDate
  split <;> split <;> simp [hne htext, hne htext', (hne htext _).symm, (hne htext' _).symm]

theorem plainQt_titles : Titles plainQt where
  month a b := plainDate_iff (by decide) (by decide) a b
  day a b := plainDate_iff (by decide) (by decide) a b

instance : TransCmp plainQt.collate := by
  have heq : plainQt.collate = compare := by
    funext a b
    unfold Qt.collate plainQt
    dsimp only
    cases compare a b <;> rfl
  rw [heq]
  infer_instance

theorem rows_run_two_coins :
    let m := (start plainCore plainQt []).step plainCore plainQt (.setSortBy "amount")
    m.rows.Pairwise fun x y => m.view.less plainQt x y = true :=
  (rows_run plainCore_listsOnce plainQt_titles
    (Reach.Reaches.snoc .refl (.setSortBy "amount") trivial)).2.2.1

end CoinsListModel

end GuiQml.Coins
