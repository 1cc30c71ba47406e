import GuiQml.Coins.Ordered
import GuiQml.Lib.Decimal

/-!
# The selected coins

Only a coin that is listed is selected, whatever the wallet and the user do. The picker gives back what was
selected before it where it is cancelled, and a coin that gets locked is selected no more.
-/

namespace GuiQml.Coins

open Std Comparator

variable {ω δ : Type} {core : CoreWallet ω δ} {qt : Qt} {m m' : CoinsListModel ω}

namespace CoinsListModel

/-! ## The view -/

/-- The coins, the coin control and what is kept for a cancel are the same. -/
structure Same (m m' : CoinsListModel ω) : Prop where
  wallet : m'.m_wallet_model = m.m_wallet_model
  coins : m'.m_coins = m.m_coins
  previous : m'.m_previous_selection = m.m_previous_selection

theorem same_refl (m : CoinsListModel ω) : m.Same m := ⟨rfl, rfl, rfl⟩

theorem same_setView (m : CoinsListModel ω) (view : View) : m.Same (m.setView qt view) := by
  unfold setView
  split
  · exact same_refl m
  · exact ⟨rfl, rfl, rfl⟩

theorem same_setOption {α : Type} (m : CoinsListModel ω) (v : Option α) (view : α → View) :
    m.Same (v.elim m fun v => m.setView qt (view v)) := by
  cases v with
  | none => exact same_refl m
  | some v => exact same_setView m (view v)

/-! ## The identity of a coin -/

theorem hexDigit_inj {a b : Nat} (ha : a < 16) (hb : b < 16) (h : hexDigit a = hexDigit b) : a = b := by
  unfold hexDigit at h
  split at h <;> split at h <;> omega

theorem hexByte_inj {a b : Fin 256} (h : hexByte a = hexByte b) : a = b := by
  unfold hexByte at h
  obtain ⟨hhigh, hlow⟩ := List.cons.inj h
  have ha := a.isLt
  have hb := b.isLt
  have hdiv := hexDigit_inj (by omega) (by omega) hhigh
  have hmod := hexDigit_inj (by omega) (by omega) (List.cons.inj hlow).1
  exact Fin.ext (by omega)

theorem length_hexBytes (bytes : List (Fin 256)) : (bytes.flatMap hexByte).length = 2 * bytes.length := by
  induction bytes with
  | nil => rfl
  | cons b bytes ih =>
    rw [List.flatMap_cons, List.length_append, ih, List.length_cons]
    show 2 + 2 * bytes.length = 2 * (bytes.length + 1)
    omega

theorem hexBytes_inj {as bs : List (Fin 256)} (hlen : as.length = bs.length)
    (h : as.flatMap hexByte = bs.flatMap hexByte) : as = bs := by
  induction as generalizing bs with
  | nil => exact (List.length_eq_zero_iff.1 hlen.symm).symm
  | cons a as ih =>
    obtain _ | ⟨b, bs⟩ := bs
    · cases hlen
    · rw [List.flatMap_cons, List.flatMap_cons] at h
      obtain ⟨hhead, hrest⟩ := List.append_inj h rfl
      rw [hexByte_inj hhead, ih (Nat.succ.inj hlen) hrest]

theorem length_getHex (hash : Txid) : (getHex hash).length = 64 := by
  unfold getHex
  rw [length_hexBytes, List.length_reverse, Vector.length_toList]

theorem number_inj {a b : Nat} (h : number a = number b) : a = b := by
  have hdigits : Nat.toDigits 10 a = Nat.toDigits 10 b :=
    List.map_injective_iff.2 (fun c d hcd => Char.toNat_inj.1 hcd) h
  rw [← Decimal.value_toDigits a, hdigits, Decimal.value_toDigits]

theorem id_inj {a b : COutPoint} (h : a.id = b.id) : a = b := by
  unfold COutPoint.id at h
  obtain ⟨hhash, hrest⟩ := List.append_inj h ((length_getHex _).trans (length_getHex _).symm)
  have hn := number_inj (List.cons.inj hrest).2
  have hlist := List.reverse_injective (hexBytes_inj (by simp) hhash)
  cases a
  cases b
  congr 1
  exact Vector.toList_inj.1 hlist

/-! ## Only what is listed is selected -/

def Listed (m : CoinsListModel ω) : Prop := ∀ o ∈ m.m_wallet_model.selected, o ∈ m.listed

theorem listed_update (core : CoreWallet ω δ) (qt : Qt) (m : CoinsListModel ω) : (m.update core qt).Listed := by
  intro o ho
  exact (Finset.mem_filter.1 ho).2

namespace Listed

theorem same (h : m.Listed) (hsame : m.Same m') : m'.Listed := by
  unfold Listed listed
  rw [hsame.wallet, hsame.coins]
  exact h

theorem toggleCoinSelectionById (h : m.Listed) (coin_id : QString) : (m.toggleCoinSelectionById coin_id).1.Listed := by
  unfold CoinsListModel.toggleCoinSelectionById
  split
  · exact h
  · rename_i coin hfind
    have hcoin : coin ∈ m.m_coins := List.mem_of_find?_eq_some hfind
    intro o ho
    dsimp only at ho
    split at ho
    · exact h o (Finset.mem_of_mem_erase ho)
    · rcases Finset.mem_insert.1 ho with rfl | ho
      · exact List.mem_map_of_mem hcoin
      · exact h o ho

theorem toggleCoinSelection (h : m.Listed) (row : Int) : (m.toggleCoinSelection row).Listed := by
  unfold CoinsListModel.toggleCoinSelection
  split
  · exact h
  · exact h.toggleCoinSelectionById _

theorem beginSelection (h : m.Listed) : (m.beginSelection core qt).Listed := by
  unfold CoinsListModel.beginSelection
  split
  · exact h
  · exact listed_update core qt m

theorem cancelSelection (h : m.Listed) : m.cancelSelection.Listed := by
  unfold CoinsListModel.cancelSelection
  split
  · exact h
  · exact fun o ho => (Finset.mem_filter.1 ho).2

theorem step (h : m.Listed) (e : Event ω) : (m.step core qt e).Listed := by
  cases e with
  | walletChanged wallet => exact h
  | clearSelectedCoins => exact fun o ho => absurd ho (Finset.notMem_empty o)
  | update => exact listed_update core qt m
  | setSearchText v => exact h.same (same_setView m _)
  | setSortBy v => exact h.same (same_setOption m _ _)
  | setSortDescending v => exact h.same (same_setView m _)
  | setFilter v => exact h.same (same_setOption m _ _)
  | setGroupBy v => exact h.same (same_setOption m _ _)
  | setMinAmount v => exact h.same (same_setView m _)
  | setMaxAmount v => exact h.same (same_setView m _)
  | toggleCoinSelection row => exact h.toggleCoinSelection row
  | toggleCoinSelectionById coin_id => exact h.toggleCoinSelectionById coin_id
  | beginSelection => exact h.beginSelection
  | applySelection => exact h
  | cancelSelection => exact h.cancelSelection
  | setCoinsLocked ids locked => exact listed_update core qt _

end Listed

theorem selectedCoins_outpoints (hkeyed : Keyed Coin.outpoint m.m_coins) (hlisted : m.Listed) :
    (m.selectedCoins.map Coin.outpoint).Nodup ∧
    (m.selectedCoins.map Coin.outpoint).toFinset = m.m_wallet_model.selected := by
  constructor
  · exact hkeyed.sublist List.filter_sublist
  · ext o
    simp only [selectedCoins, List.mem_toFinset, List.mem_map, List.mem_filter, decide_eq_true_eq]
    constructor
    · rintro ⟨coin, ⟨-, hselected⟩, rfl⟩
      exact hselected
    · intro ho
      obtain ⟨coin, hcoin, rfl⟩ := List.mem_map.1 (hlisted o ho)
      exact ⟨coin, ⟨hcoin, ho⟩, rfl⟩

theorem toggleById_listed {coin : Coin} (hcoin : coin ∈ m.m_coins) :
    (m.toggleCoinSelectionById coin.id).1.m_wallet_model.selected =
      if coin.outpoint ∈ m.m_wallet_model.selected then m.m_wallet_model.selected.erase coin.outpoint
      else insert coin.outpoint m.m_wallet_model.selected := by
  unfold toggleCoinSelectionById
  split
  · rename_i hfind
    exact absurd (decide_eq_true rfl) (List.find?_eq_none.1 hfind coin hcoin)
  · rename_i found hfind
    have hid : found.id = coin.id := by simpa using List.find?_some hfind
    rw [id_inj hid]
    split <;> rfl

theorem visible_lt (hshown : m.Shown qt) {i : Nat} (hi : i ∈ m.m_visible) : i < m.m_coins.length := by
  rw [hshown.rebuilt] at hi
  exact List.mem_range.1 (List.mem_filter.1 (mem_sortBy.1 hi)).1

theorem toggle_row (hshown : m.Shown qt) {row : Nat} (hrow : row < m.rows.length) :
    (m.toggleCoinSelection row).m_wallet_model.selected =
      if m.rows[row].outpoint ∈ m.m_wallet_model.selected then m.m_wallet_model.selected.erase m.rows[row].outpoint
      else insert m.rows[row].outpoint m.m_wallet_model.selected := by
  have hvisible : row < m.m_visible.length := by simpa [rows] using hrow
  have hcoin : m.rows[row] = m.coinAt (m.m_visible.getD row 0) := by
    simp [rows, List.getElem?_eq_getElem hvisible]
  have hlisted : m.rows[row] ∈ m.m_coins := by
    have hmem : m.m_visible.getD row 0 ∈ m.m_visible := by
      simp [List.getElem?_eq_getElem hvisible]
    rw [hcoin, coinAt_eq (visible_lt hshown hmem)]
    exact List.getElem_mem _
  have hin : ¬((row : Int) < 0 ∨ (m.rowCount : Int) ≤ row) := by
    unfold rowCount
    omega
  rw [toggleCoinSelection, if_neg hin, Int.toNat_natCast, ← hcoin]
  exact toggleById_listed hlisted

/-- In every run a selected outpoint is that of one listed coin, as many listed coins are selected as the count says,
and a click on a row toggles the coin that the row shows. -/
theorem selected_run (honce : ListsOnce core) {wallet : ω}
    (h : Reach.Reaches (step core qt) (fun _ _ => True) (start core qt wallet) m) :
    (∀ o ∈ m.m_wallet_model.selected, ∃! coin, coin ∈ m.m_coins ∧ coin.outpoint = o) ∧
    m.selectedCoinsCount = m.selectedCoins.length ∧
    ∀ row, ∀ _ : row < m.rows.length,
      (m.toggleCoinSelection row).m_wallet_model.selected =
        if m.rows[row].outpoint ∈ m.m_wallet_model.selected then
          m.m_wallet_model.selected.erase m.rows[row].outpoint
        else insert m.rows[row].outpoint m.m_wallet_model.selected := by
  have hshown := shown_run honce h
  have hlisted : m.Listed := h.invariant (listed_update core qt _) fun _ e hlisted _ => hlisted.step e
  obtain ⟨hnodup, houtpoints⟩ := selectedCoins_outpoints hshown.keyed hlisted
  refine ⟨fun o ho => ?_, ?_, fun row hrow => toggle_row hshown hrow⟩
  · obtain ⟨coin, hcoin, rfl⟩ := List.mem_map.1 (hlisted o ho)
    exact ⟨coin, ⟨hcoin, rfl⟩, fun coin' h' => hshown.keyed.inj h'.1 hcoin h'.2⟩
  · unfold selectedCoinsCount
    rw [← houtpoints, List.toFinset_card_of_nodup hnodup, List.length_map]

theorem selected_run_toggled :
    let m := (start plainCore plainQt []).step plainCore plainQt (.toggleCoinSelection 1)
    m.selectedCoinsCount = m.selectedCoins.length :=
  (selected_run plainCore_listsOnce (Reach.Reaches.snoc .refl (.toggleCoinSelection 1) trivial)).2.1

/-! ## The picker -/

/-- The picker stays open, whatever else is done. -/
def KeepsOpen : Event ω → Prop
  | .applySelection | .cancelSelection => False
  | _ => True

theorem previous_toggleById (m : CoinsListModel ω) (coin_id : QString) :
    (m.toggleCoinSelectionById coin_id).1.m_previous_selection = m.m_previous_selection := by
  unfold toggleCoinSelectionById
  split <;> rfl

theorem previous_step {previous : Finset COutPoint} (hopen : m.m_previous_selection = some previous)
    {e : Event ω} (he : KeepsOpen e) : (m.step core qt e).m_previous_selection = some previous := by
  cases e with
  | walletChanged wallet => exact hopen
  | clearSelectedCoins => exact hopen
  | update => exact hopen
  | setSearchText v => exact (same_setView m _).previous.trans hopen
  | setSortBy v => exact (same_setOption m _ _).previous.trans hopen
  | setSortDescending v => exact (same_setView m _).previous.trans hopen
  | setFilter v => exact (same_setOption m _ _).previous.trans hopen
  | setGroupBy v => exact (same_setOption m _ _).previous.trans hopen
  | setMinAmount v => exact (same_setView m _).previous.trans hopen
  | setMaxAmount v => exact (same_setView m _).previous.trans hopen
  | toggleCoinSelection row =>
    show (m.toggleCoinSelection row).m_previous_selection = some previous
    unfold toggleCoinSelection
    split
    · exact hopen
    · exact (previous_toggleById m _).trans hopen
  | toggleCoinSelectionById coin_id => exact (previous_toggleById m coin_id).trans hopen
  | beginSelection =>
    show (m.beginSelection core qt).m_previous_selection = some previous
    rw [beginSelection, if_pos (by rw [hopen]; rfl)]
    exact hopen
  | applySelection => exact he.elim
  | cancelSelection => exact he.elim
  | setCoinsLocked ids locked => exact hopen

/-- The picker stays open through a run. -/
theorem previous_run {previous : Finset COutPoint} {events : List (Event ω)} (hkeeps : ∀ e ∈ events, KeepsOpen e)
    (hopen : m.m_previous_selection = some previous) :
    (events.foldl (step core qt) m).m_previous_selection = some previous := by
  induction events generalizing m with
  | nil => exact hopen
  | cons e events ih =>
    rw [List.forall_mem_cons] at hkeeps
    exact ih hkeeps.2 (previous_step hopen hkeeps.1)

theorem cancelSelection_open {previous : Finset COutPoint} (hopen : m.m_previous_selection = some previous) :
    m.cancelSelection = { m with
      m_previous_selection := none
      m_wallet_model := { m.m_wallet_model with selected := previous.filter fun o => o ∈ m.listed } } := by
  unfold cancelSelection
  rw [hopen]

/-- A cancel leaves selected what was selected when the picker opened, less what is no longer listed, and
changes no coin and no row. -/
theorem cancel_restores (hclosed : m.m_previous_selection = none) {events : List (Event ω)}
    (hkeeps : ∀ e ∈ events, KeepsOpen e) :
    let opened := m.beginSelection core qt
    let edited := events.foldl (step core qt) opened
    edited.cancelSelection.m_wallet_model.selected =
        (m.m_wallet_model.selected.filter fun o => o ∈ opened.listed ∧ o ∈ edited.listed) ∧
      edited.cancelSelection.m_coins = edited.m_coins ∧ edited.cancelSelection.m_visible = edited.m_visible ∧
      edited.cancelSelection.m_previous_selection = none := by
  intro opened edited
  have hbegin : opened =
      { m.update core qt with m_previous_selection := some (m.update core qt).m_wallet_model.selected } := by
    simp only [opened, beginSelection, hclosed, Option.isSome_none, Bool.false_eq_true, if_false]
  have hopen : edited.m_previous_selection = some (m.update core qt).m_wallet_model.selected :=
    previous_run hkeeps (by rw [hbegin])
  have hlisted : opened.listed = (m.update core qt).listed := by rw [hbegin]; rfl
  rw [cancelSelection_open hopen, hlisted]
  refine ⟨?_, rfl, rfl, rfl⟩
  exact Finset.filter_filter _ _ _

theorem cancel_restores_toggled :
    let m := ((start plainCore plainQt []).toggleCoinSelectionById (COutPoint.id ⟨zeroTxid, 0⟩)).1
    let edited := [.toggleCoinSelectionById (COutPoint.id ⟨zeroTxid, 0⟩),
      .toggleCoinSelectionById (COutPoint.id ⟨zeroTxid, 1⟩)].foldl (step plainCore plainQt)
        (m.beginSelection plainCore plainQt)
    edited.m_wallet_model.selected = {⟨zeroTxid, 1⟩} ∧
      edited.cancelSelection.m_wallet_model.selected = {⟨zeroTxid, 0⟩} := by
  intro m edited
  have hrestored := (@cancel_restores _ _ plainCore plainQt m rfl
    [.toggleCoinSelectionById (COutPoint.id ⟨zeroTxid, 0⟩), .toggleCoinSelectionById (COutPoint.id ⟨zeroTxid, 1⟩)]
    (by simp [KeepsOpen])).1
  exact ⟨by decide, hrestored.trans (by decide)⟩

/-! ## Locking -/

/-- A lock or an unlock of an outpoint that succeeds does what it says, and none does anything else that the
model reads. -/
structure LawfulLocks (core : CoreWallet ω δ) : Prop where
  changed : ∀ locked w o, (changeLock core locked w o).1 = true →
    core.isLockedCoin (changeLock core locked w o).2 o = locked
  other : ∀ locked w o o', o' ≠ o → core.isLockedCoin (changeLock core locked w o).2 o' = core.isLockedCoin w o'
  coins : ∀ locked w o, core.listCoins (changeLock core locked w o).2 = core.listCoins w
  labels : ∀ locked w o, core.getAddressLabel (changeLock core locked w o).2 = core.getAddressLabel w

/-- The coins that the loop of `setCoinsLocked` asks the wallet for. -/
def asked (ids : List QString) (locked : Bool) (coins : List Coin) : List Coin :=
  coins.filter fun coin => ids.contains coin.id && coin.locked != locked

/-- What the loop has done once it is through `coins`. -/
structure Relocked (core : CoreWallet ω δ) (ids : List QString) (locked : Bool) (w : WalletQmlModel ω)
    (coins : List Coin) (done : WalletQmlModel ω × Bool) : Prop where
  lists : core.listCoins done.1.m_wallet = core.listCoins w.m_wallet
  labels : core.getAddressLabel done.1.m_wallet = core.getAddressLabel w.m_wallet
  other : ∀ o, o ∉ (asked ids locked coins).map Coin.outpoint →
    core.isLockedCoin done.1.m_wallet o = core.isLockedCoin w.m_wallet o ∧ (o ∈ done.1.selected ↔ o ∈ w.selected)
  changed : done.2 = true → ∀ o ∈ (asked ids locked coins).map Coin.outpoint,
    core.isLockedCoin done.1.m_wallet o = locked ∧ (o ∈ done.1.selected ↔ locked = false ∧ o ∈ w.selected)

theorem relocked_nil (core : CoreWallet ω δ) (ids : List QString) (locked : Bool) (w : WalletQmlModel ω) :
    Relocked core ids locked w [] (w, true) :=
  ⟨rfl, rfl, fun _ _ => ⟨rfl, Iff.rfl⟩, fun _ o ho => by cases ho⟩

theorem asked_concat (ids : List QString) (locked : Bool) (coins : List Coin) (coin : Coin) :
    asked ids locked (coins ++ [coin]) =
      asked ids locked coins ++ if coin.id ∈ ids ∧ coin.locked ≠ locked then [coin] else [] := by
  unfold asked
  rw [List.filter_append, List.filter_singleton]
  simp

theorem selected_lockStep {ids : List QString} {locked : Bool} {done : WalletQmlModel ω × Bool} {coin : Coin}
    (hask : coin.id ∈ ids ∧ coin.locked ≠ locked) :
    let changed := changeLock core locked done.1.m_wallet coin.outpoint
    (lockStep core ids locked done coin).1.m_wallet = changed.2 ∧
    (lockStep core ids locked done coin).2 = (changed.1 && done.2) ∧
    ∀ o, o ∈ (lockStep core ids locked done coin).1.selected ↔
      o ∈ done.1.selected ∧ ¬(changed.1 = true ∧ locked = true ∧ o = coin.outpoint) := by
  intro changed
  have hnot : ¬(!ids.contains coin.id || coin.locked == locked) = true := by simpa using hask
  unfold lockStep
  rw [if_neg hnot]
  refine ⟨?_, rfl, fun o => ?_⟩
  · dsimp only
    split <;> rfl
  · dsimp only
    by_cases h : changed.1 = true ∧ locked = true
    · rw [if_pos (by simpa [changed] using h)]
      simp only [WalletQmlModel.unselectCoin, Finset.mem_erase]
      tauto
    · rw [if_neg (by simpa [changed] using h)]
      tauto

theorem Relocked.concat (hlocks : LawfulLocks core) {ids : List QString} {locked : Bool} {w : WalletQmlModel ω}
    {coins : List Coin} {coin : Coin} {done : WalletQmlModel ω × Bool}
    (hnew : coin.outpoint ∉ coins.map Coin.outpoint) (h : Relocked core ids locked w coins done) :
    Relocked core ids locked w (coins ++ [coin]) (lockStep core ids locked done coin) := by
  have hasked := asked_concat ids locked coins coin
  by_cases hask : coin.id ∈ ids ∧ coin.locked ≠ locked
  · rw [if_pos hask] at hasked
    obtain ⟨hwallet, hok, hselected⟩ := @selected_lockStep _ _ core ids locked done coin hask
    have hfresh : ∀ o ∈ (asked ids locked coins).map Coin.outpoint, o ≠ coin.outpoint := by
      rintro o ho rfl
      exact hnew (List.map_subset _ (List.filter_sublist.subset) ho)
    constructor
    · rw [hwallet, hlocks.coins, h.lists]
    · rw [hwallet, hlocks.labels, h.labels]
    · intro o ho
      rw [hasked, List.map_append, List.mem_append, not_or] at ho
      have hne : o ≠ coin.outpoint := by simpa using ho.2
      obtain ⟨hlock, hmem⟩ := h.other o ho.1
      rw [hwallet, hlocks.other _ _ _ _ hne, hselected]
      exact ⟨hlock, by tauto⟩
    · intro hdone o ho
      rw [hok, Bool.and_eq_true] at hdone
      rw [hasked, List.map_append, List.mem_append] at ho
      rw [hwallet, hselected]
      rcases ho with ho | ho
      · obtain ⟨hlock, hmem⟩ := h.changed hdone.2 o ho
        rw [hlocks.other _ _ _ _ (hfresh o ho)]
        have hne := hfresh o ho
        exact ⟨hlock, by tauto⟩
      · have heq : o = coin.outpoint := by simpa using ho
        subst heq
        have hother := (h.other coin.outpoint fun hold => hfresh _ hold rfl).2
        refine ⟨hlocks.changed _ _ _ hdone.1, ?_⟩
        cases locked <;> simp [hdone.1, hother]
  · have hskip : (!ids.contains coin.id || coin.locked == locked) = true := by
      simpa [or_iff_not_imp_left] using hask
    rw [if_neg hask, List.append_nil] at hasked
    rw [lockStep, if_pos hskip]
    exact ⟨h.lists, h.labels, hasked ▸ h.other, hasked ▸ h.changed⟩

theorem relocked_foldl (hlocks : LawfulLocks core) (ids : List QString) (locked : Bool) (w : WalletQmlModel ω)
    {coins : List Coin} (hkeyed : Keyed Coin.outpoint coins) :
    Relocked core ids locked w coins (coins.foldl (lockStep core ids locked) (w, true)) := by
  induction coins using List.reverseRecOn with
  | nil => exact relocked_nil core ids locked w
  | append_singleton coins coin ih =>
    rw [List.foldl_concat]
    unfold Keyed at hkeyed
    rw [List.map_append, List.nodup_append] at hkeyed
    refine (ih hkeyed.1).concat hlocks fun hmem => ?_
    exact hkeyed.2.2 _ hmem _ (List.mem_singleton_self _) rfl

theorem readCoins_relocked {w w' : ω} (hlists : core.listCoins w' = core.listCoins w)
    (hlabels : core.getAddressLabel w' = core.getAddressLabel w) :
    readCoins core w' =
      (readCoins core w).map fun coin => { coin with locked := core.isLockedCoin w' coin.outpoint } := by
  unfold readCoins
  rw [hlists, hlabels, List.map_flatMap]
  congr 1
  funext entry
  rw [List.map_filterMap]
  congr 1
  funext output
  split <;> rfl

theorem locked_readCoins {w : ω} {coin : Coin} (hcoin : coin ∈ readCoins core w) :
    core.isLockedCoin w coin.outpoint = coin.locked := by
  obtain ⟨entry, -, hentry⟩ := List.mem_flatMap.1 hcoin
  obtain ⟨output, -, houtput⟩ := List.mem_filterMap.1 hentry
  split at houtput
  · cases houtput
  · cases houtput
    rfl

theorem mem_asked_iff {ids : List QString} {locked : Bool} {coins : List Coin} (hkeyed : Keyed Coin.outpoint coins)
    {coin : Coin} (hcoin : coin ∈ coins) :
    coin.outpoint ∈ (asked ids locked coins).map Coin.outpoint ↔ coin.id ∈ ids ∧ coin.locked ≠ locked := by
  unfold asked
  simp only [List.mem_map, List.mem_filter, Bool.and_eq_true, List.contains_iff_mem, bne_iff_ne]
  constructor
  · rintro ⟨coin', ⟨hmem, hask⟩, heq⟩
    rw [← hkeyed.inj hmem hcoin heq]
    exact hask
  · exact fun hask => ⟨coin, ⟨hcoin, hask⟩, rfl⟩

theorem coins_setCoinsLocked {ids : List QString} {locked : Bool}
    (hsync : m.m_coins = readCoins core m.m_wallet_model.m_wallet)
    (hloop : Relocked core ids locked m.m_wallet_model m.m_coins
      (m.m_coins.foldl (lockStep core ids locked) (m.m_wallet_model, true))) :
    (m.setCoinsLocked core qt ids locked).1.m_coins = m.m_coins.map fun coin => { coin with
      locked := core.isLockedCoin
        (m.m_coins.foldl (lockStep core ids locked) (m.m_wallet_model, true)).1.m_wallet coin.outpoint } := by
  have hread := readCoins_relocked hloop.lists hloop.labels
  rw [← hsync] at hread
  exact hread

theorem selected_setCoinsLocked {ids : List QString} {locked : Bool}
    (hsync : m.m_coins = readCoins core m.m_wallet_model.m_wallet)
    (hloop : Relocked core ids locked m.m_wallet_model m.m_coins
      (m.m_coins.foldl (lockStep core ids locked) (m.m_wallet_model, true))) {coin : Coin} (hcoin : coin ∈ m.m_coins) :
    coin.outpoint ∈ (m.setCoinsLocked core qt ids locked).1.m_wallet_model.selected ↔
      coin.outpoint ∈ (m.m_coins.foldl (lockStep core ids locked) (m.m_wallet_model, true)).1.selected := by
  have hlisted : coin.outpoint ∈ (m.setCoinsLocked core qt ids locked).1.m_coins.map Coin.outpoint := by
    rw [coins_setCoinsLocked hsync hloop, List.map_map]
    exact List.mem_map_of_mem (f := Coin.outpoint) hcoin
  exact Finset.mem_filter.trans (and_iff_left hlisted)

/-- Where the rows show the wallet as it is, the coins that are named are locked or unlocked and no other, and
a coin that gets locked is selected no more. What is returned says whether it is so of every named coin. -/
theorem setCoinsLocked_run (honce : ListsOnce core) (hlocks : LawfulLocks core) {wallet : ω}
    (h : Reach.Reaches (step core qt) (fun _ _ => True) (start core qt wallet) m)
    (hsync : m.m_coins = readCoins core m.m_wallet_model.m_wallet) (ids : List QString) (locked : Bool) :
    let done := m.setCoinsLocked core qt ids locked
    (done.2 = true →
      done.1.m_coins = m.m_coins.map (fun coin => if coin.id ∈ ids then { coin with locked } else coin) ∧
      ∀ coin ∈ m.m_coins, coin.outpoint ∈ done.1.m_wallet_model.selected ↔
        coin.outpoint ∈ m.m_wallet_model.selected ∧
          ¬(locked = true ∧ coin.id ∈ ids ∧ coin.locked = false)) ∧
    done.1.m_coins.filter (fun coin => coin.id ∉ ids) = m.m_coins.filter (fun coin => coin.id ∉ ids) ∧
    ∀ coin ∈ m.m_coins, coin.id ∉ ids →
      (coin.outpoint ∈ done.1.m_wallet_model.selected ↔ coin.outpoint ∈ m.m_wallet_model.selected) := by
  intro done
  have hkeyed := (shown_run honce h).keyed
  have hloop := relocked_foldl hlocks ids locked m.m_wallet_model hkeyed
  have hcoins := @coins_setCoinsLocked _ _ core qt m ids locked hsync hloop
  have hwas {coin : Coin} (hcoin : coin ∈ m.m_coins) :
      core.isLockedCoin m.m_wallet_model.m_wallet coin.outpoint = coin.locked := locked_readCoins (hsync ▸ hcoin)
  -- A coin that the loop does not ask for stays as it is.
  have hother {coin : Coin} (hcoin : coin ∈ m.m_coins) (hask : ¬(coin.id ∈ ids ∧ coin.locked ≠ locked)) :=
    hloop.other coin.outpoint fun hmem => hask ((mem_asked_iff hkeyed hcoin).1 hmem)
  refine ⟨fun hdone => ⟨?_, fun coin hcoin => ?_⟩, ?_, fun coin hcoin hid => ?_⟩
  · rw [hcoins]
    refine List.map_congr_left fun coin hcoin => ?_
    by_cases hask : coin.id ∈ ids ∧ coin.locked ≠ locked
    · rw [if_pos hask.1, (hloop.changed hdone _ ((mem_asked_iff hkeyed hcoin).2 hask)).1]
    · rw [(hother hcoin hask).1, hwas hcoin]
      split
      · rename_i hid
        have hsame : coin.locked = locked := by tauto
        rw [hsame]
      · rfl
  · rw [selected_setCoinsLocked hsync hloop hcoin]
    by_cases hask : coin.id ∈ ids ∧ coin.locked ≠ locked
    · rw [(hloop.changed hdone _ ((mem_asked_iff hkeyed hcoin).2 hask)).2]
      cases hlocked : coin.locked <;> cases locked <;> simp_all
    · rw [(hother hcoin hask).2]
      cases hlocked : coin.locked <;> cases locked <;> simp_all
  · rw [hcoins, List.filter_map]
    refine (List.map_congr_left fun coin hcoin => ?_).trans (List.map_id _)
    have hkept := List.mem_filter.1 hcoin
    have hid : coin.id ∉ ids := of_decide_eq_true hkept.2
    rw [(hother hkept.1 fun hask => hid hask.1).1, hwas hkept.1]
    rfl
  · rw [selected_setCoinsLocked hsync hloop hcoin]
    exact (hother hcoin fun hask => hid hask.1).2

theorem plainCore_lawfulLocks : LawfulLocks plainCore where
  changed locked w o _ := by cases locked <;> simp [changeLock, plainCore]
  other locked w o o' hne := by cases locked <;> simp [changeLock, plainCore, hne]
  coins _ _ _ := rfl
  labels _ _ _ := rfl

theorem setCoinsLocked_run_two_coins :
    let m := start plainCore plainQt []
    let ids := [(⟨zeroTxid, 1⟩ : COutPoint).id]
    (m.setCoinsLocked plainCore plainQt ids true).1.m_coins =
      m.m_coins.map fun coin => if coin.id ∈ ids then { coin with locked := true } else coin :=
  ((setCoinsLocked_run plainCore_listsOnce plainCore_lawfulLocks .refl rfl _ true).1 (by decide)).1

end CoinsListModel

end GuiQml.Coins
