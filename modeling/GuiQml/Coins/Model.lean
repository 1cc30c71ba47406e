import GuiQml.Lib.Comparator
import GuiQml.Lib.Groups
import Mathlib.Algebra.BigOperators.Group.List.Basic
import Mathlib.Data.Finset.Card
import Mathlib.Data.Nat.Digits.Defs

/-!
# The coins to choose from

`CoinsListModel` over the coin control of its `WalletQmlModel`. Core's wallet and Qt are given by the functions
of them that the code calls. The preview of the fee, which is asked for after each change of the selection, is left
out.
-/

namespace GuiQml.Coins

/-- The UTF-16 code units. -/
abbrev QString := List Nat

/-- The bytes in the order in which they are compared. -/
abbrev Txid := Vector (Fin 256) 32

def zeroTxid : Txid := Vector.replicate 32 0

structure COutPoint where
  hash : Txid
  n : Nat
  deriving DecidableEq

structure TxOut where
  nValue : Int
  scriptPubKey : List (Fin 256)

structure WalletTxOut where
  txout : TxOut
  time : Int
  is_spent : Bool

/-- Core's wallet in the state `ω`, and its destinations `δ`. -/
structure CoreWallet (ω δ : Type) where
  listCoins : ω → List (δ × List (COutPoint × WalletTxOut))
  getAddressLabel : ω → QString → QString
  isLockedCoin : ω → COutPoint → Bool
  /-- Whether it was done, and the wallet after it. -/
  lockCoin : ω → COutPoint → Bool × ω
  unlockCoin : ω → COutPoint → Bool × ω
  extractDestination : List (Fin 256) → Option δ
  encodeDestination : δ → QString

structure Qt where
  /-- `QString::contains` without the case. -/
  contains : QString → QString → Bool
  toCaseFolded : QString → QString
  localeAwareCompare : QString → QString → Int
  /-- The local date of the seconds since the epoch in a format. -/
  toString : Int → String → QString
  /-- As `QLocale` writes it. -/
  localeString : Int → String → QString

/-! ## A coin -/

structure Coin where
  outpoint : COutPoint
  address : QString
  note : QString
  amount : Int
  date : Int
  locked : Bool
  deriving DecidableEq

instance : Inhabited Coin := ⟨⟨⟨zeroTxid, 0⟩, [], [], 0, 0, false⟩⟩

def hexDigit (d : Nat) : Nat := if d < 10 then 48 + d else 87 + d

def hexByte (b : Fin 256) : QString := [hexDigit (b.val / 16), hexDigit (b.val % 16)]

/-- `GetHex`, which begins with the last byte. -/
def getHex (hash : Txid) : QString := hash.toList.reverse.flatMap hexByte

def number (n : Nat) : QString := (Nat.toDigits 10 n).map Char.toNat

def COutPoint.id (outpoint : COutPoint) : QString := getHex outpoint.hash ++ ':'.toNat :: number outpoint.n

def Coin.id (coin : Coin) : QString := coin.outpoint.id

/-! ## The settings of the view -/

inductive SortBy
  | date
  | amount
  | label
  deriving DecidableEq, Repr

def SortBy.ofString : String → Option SortBy
  | "date" => some .date
  | "amount" => some .amount
  | "label" => some .label
  | _ => none

inductive Filter
  | all
  | spendable
  | locked
  deriving DecidableEq, Repr

def Filter.ofString : String → Option Filter
  | "all" => some .all
  | "spendable" => some .spendable
  | "locked" => some .locked
  | _ => none

inductive GroupBy
  | date
  | month
  | address
  deriving DecidableEq, Repr

def GroupBy.ofString : String → Option GroupBy
  | "date" => some .date
  | "month" => some .month
  | "address" => some .address
  | _ => none

structure View where
  m_search : QString := []
  m_sort : SortBy := .date
  m_filter : Filter := .all
  m_group : GroupBy := .date
  m_min_amount : Int := -1
  m_max_amount : Int := -1
  m_descending : Bool := true
  deriving DecidableEq

/-- `operator<` of two strings. -/
def QString.less (a b : QString) : Bool := (compare a b).isLT

/-- `operator<` of two outpoints. -/
def COutPoint.less (a b : COutPoint) : Bool :=
  if a.hash ≠ b.hash then (compare a.hash b.hash).isLT else a.n < b.n

namespace View

variable (qt : Qt) (v : View)

def groupTitle (coin : Coin) : QString :=
  if v.m_group = .address then coin.address
  else qt.localeString coin.date (if v.m_group = .month then "MMMM yyyy" else "MMM d, yyyy")

/-- What the coins of a group share, for the groups of a date. -/
def dateKey (coin : Coin) : QString := qt.toString coin.date (if v.m_group = .month then "yyyyMM" else "yyyyMMdd")

def shows (coin : Coin) : Bool :=
  (v.m_search.isEmpty || qt.contains coin.note v.m_search || qt.contains coin.address v.m_search ||
    qt.contains coin.id v.m_search) &&
  !(v.m_filter = .locked && !coin.locked) &&
  !(v.m_filter = .spendable && coin.locked) &&
  !(0 ≤ v.m_min_amount && coin.amount < v.m_min_amount) &&
  !(0 ≤ v.m_max_amount && v.m_max_amount < coin.amount)

def cmp (x y : Coin) : Int :=
  match v.m_sort with
  | .amount => if x.amount < y.amount then -1 else if y.amount < x.amount then 1 else 0
  | .label => qt.localeAwareCompare (qt.toCaseFolded x.note) (qt.toCaseFolded y.note)
  | .date => if x.date < y.date then -1 else if y.date < x.date then 1 else 0

/-- What `std::sort` is given. -/
def less (x y : Coin) : Bool :=
  if v.m_group = .address ∧ x.address ≠ y.address then QString.less x.address y.address
  else if v.m_group ≠ .address ∧ v.dateKey qt x ≠ v.dateKey qt y then
    if v.m_descending then QString.less (v.dateKey qt y) (v.dateKey qt x)
    else QString.less (v.dateKey qt x) (v.dateKey qt y)
  else if v.cmp qt x y = 0 then x.outpoint.less y.outpoint
  else if v.m_descending then 0 < v.cmp qt x y
  else v.cmp qt x y < 0

end View

/-! ## The model -/

/-- What the coin control holds of a `WalletQmlModel`, and core's wallet behind it. -/
structure WalletQmlModel (ω : Type) where
  m_wallet : ω
  /-- The coins selected in `m_coin_control`. -/
  selected : Finset COutPoint := ∅

structure CoinsListModel (ω : Type) where
  m_wallet_model : WalletQmlModel ω
  m_coins : List Coin := []
  m_visible : List Nat := []
  m_previous_selection : Option (Finset COutPoint) := none
  view : View := {}

inductive Event (ω : Type)
  /-- Core's wallet is another, whatever it did. -/
  | walletChanged (wallet : ω)
  | clearSelectedCoins
  | update
  | setSearchText (v : QString)
  | setSortBy (v : String)
  | setSortDescending (v : Bool)
  | setFilter (v : String)
  | setGroupBy (v : String)
  | setMinAmount (v : Int)
  | setMaxAmount (v : Int)
  | toggleCoinSelection (row : Int)
  | toggleCoinSelectionById (coin_id : QString)
  | beginSelection
  | applySelection
  | cancelSelection
  | setCoinsLocked (ids : List QString) (locked : Bool)

namespace WalletQmlModel

variable {ω : Type} (w : WalletQmlModel ω)

def selectCoin (output : COutPoint) : WalletQmlModel ω := { w with selected := insert output w.selected }

def unselectCoin (output : COutPoint) : WalletQmlModel ω := { w with selected := w.selected.erase output }

/-- Only the coins: which row takes the maximum is no part of the coin control. -/
def clearSelectedCoins : WalletQmlModel ω := { w with selected := ∅ }

end WalletQmlModel

namespace CoinsListModel

section Functions

variable {ω δ : Type} (core : CoreWallet ω δ) (qt : Qt) (m : CoinsListModel ω)

def rowCount : Nat := m.m_visible.length

def coinAt (i : Nat) : Coin := m.m_coins.getD i default

/-- The coins of the rows. -/
def rows : List Coin := m.m_visible.map m.coinAt

/-- `GroupFirstRole` and `GroupLastRole` of a row. -/
def groupFirst (row : Nat) : Bool := Groups.isFirst (m.view.groupTitle qt) m.rows row

def groupLast (row : Nat) : Bool := Groups.isLast (m.view.groupTitle qt) m.rows row

/-- The outpoints that the model lists. -/
def listed : List COutPoint := m.m_coins.map Coin.outpoint

/-- The coins of core's wallet that are not spent, under the address that they pay. -/
def readCoins (wallet : ω) : List Coin :=
  (core.listCoins wallet).flatMap fun entry => entry.2.filterMap fun output =>
    if output.2.is_spent then none
    else
      let destination := (core.extractDestination output.2.txout.scriptPubKey).getD entry.1
      let address := core.encodeDestination destination
      some ⟨output.1, address, core.getAddressLabel wallet address, output.2.txout.nValue, output.2.time,
        core.isLockedCoin wallet output.1⟩

def rebuildView : CoinsListModel ω :=
  let visible := (List.range m.m_coins.length).filter fun i => m.view.shows qt (m.coinAt i)
  { m with m_visible := Comparator.sortBy (fun a b => m.view.less qt (m.coinAt a) (m.coinAt b)) visible }

/-- A selected coin that is no longer there is selected no more. -/
def update : CoinsListModel ω :=
  let coins := readCoins core m.m_wallet_model.m_wallet
  rebuildView qt { m with
    m_wallet_model := { m.m_wallet_model with
      selected := m.m_wallet_model.selected.filter fun o => o ∈ coins.map Coin.outpoint }
    m_coins := coins
    m_visible := [] }

/-- A setter of the view. -/
def setView (view : View) : CoinsListModel ω := if m.view = view then m else rebuildView qt { m with view }

def setSearchText (v : QString) : CoinsListModel ω := m.setView qt { m.view with m_search := v }

def setSortBy (v : String) : CoinsListModel ω :=
  (SortBy.ofString v).elim m fun v => m.setView qt { m.view with m_sort := v }

def setSortDescending (v : Bool) : CoinsListModel ω := m.setView qt { m.view with m_descending := v }

def setFilter (v : String) : CoinsListModel ω :=
  (Filter.ofString v).elim m fun v => m.setView qt { m.view with m_filter := v }

def setGroupBy (v : String) : CoinsListModel ω :=
  (GroupBy.ofString v).elim m fun v => m.setView qt { m.view with m_group := v }

def setMinAmount (v : Int) : CoinsListModel ω := m.setView qt { m.view with m_min_amount := if v < 0 then -1 else v }

def setMaxAmount (v : Int) : CoinsListModel ω := m.setView qt { m.view with m_max_amount := if v < 0 then -1 else v }

/-- The second is what it returns. -/
def toggleCoinSelectionById (coin_id : QString) : CoinsListModel ω × Bool :=
  match m.m_coins.find? (·.id = coin_id) with
  | none => (m, false)
  | some coin =>
    ({ m with m_wallet_model :=
        if coin.outpoint ∈ m.m_wallet_model.selected then m.m_wallet_model.unselectCoin coin.outpoint
        else m.m_wallet_model.selectCoin coin.outpoint }, true)

def toggleCoinSelection (row : Int) : CoinsListModel ω :=
  if row < 0 ∨ m.rowCount ≤ row then m
  else (m.toggleCoinSelectionById (m.coinAt (m.m_visible.getD row.toNat 0)).id).1

def beginSelection : CoinsListModel ω :=
  if m.m_previous_selection.isSome then m
  else
    let m := m.update core qt
    { m with m_previous_selection := some m.m_wallet_model.selected }

def applySelection : CoinsListModel ω := { m with m_previous_selection := none }

def cancelSelection : CoinsListModel ω :=
  match m.m_previous_selection with
  | none => m
  | some previous =>
    { m with
      m_previous_selection := none
      m_wallet_model := { m.m_wallet_model with selected := previous.filter fun o => o ∈ m.listed } }

def changeLock (locked : Bool) (wallet : ω) (outpoint : COutPoint) : Bool × ω :=
  if locked then core.lockCoin wallet outpoint else core.unlockCoin wallet outpoint

/-- The body of the loop of `setCoinsLocked`, with what the loop returns. -/
def lockStep (ids : List QString) (locked : Bool) (w : WalletQmlModel ω × Bool) (coin : Coin) :
    WalletQmlModel ω × Bool :=
  if !ids.contains coin.id || coin.locked == locked then w
  else
    let done := changeLock core locked w.1.m_wallet coin.outpoint
    let model := { w.1 with m_wallet := done.2 }
    (if done.1 && locked then model.unselectCoin coin.outpoint else model, done.1 && w.2)

/-- The second is what it returns. -/
def setCoinsLocked (ids : List QString) (locked : Bool) : CoinsListModel ω × Bool :=
  let done := m.m_coins.foldl (lockStep core ids locked) (m.m_wallet_model, true)
  (({ m with m_wallet_model := done.1 } : CoinsListModel ω).update core qt, done.2)

def selectedCoinsCount : Nat := m.m_wallet_model.selected.card

/-- The coins whose row says that it is selected. -/
def selectedCoins : List Coin := m.m_coins.filter fun coin => coin.outpoint ∈ m.m_wallet_model.selected

def totalSelectedSatoshi : Int := (m.selectedCoins.map Coin.amount).sum

def step (m : CoinsListModel ω) : Event ω → CoinsListModel ω
  | .walletChanged wallet => { m with m_wallet_model := { m.m_wallet_model with m_wallet := wallet } }
  | .clearSelectedCoins => { m with m_wallet_model := m.m_wallet_model.clearSelectedCoins }
  | .update => m.update core qt
  | .setSearchText v => m.setSearchText qt v
  | .setSortBy v => m.setSortBy qt v
  | .setSortDescending v => m.setSortDescending qt v
  | .setFilter v => m.setFilter qt v
  | .setGroupBy v => m.setGroupBy qt v
  | .setMinAmount v => m.setMinAmount qt v
  | .setMaxAmount v => m.setMaxAmount qt v
  | .toggleCoinSelection row => m.toggleCoinSelection row
  | .toggleCoinSelectionById coin_id => (m.toggleCoinSelectionById coin_id).1
  | .beginSelection => m.beginSelection core qt
  | .applySelection => m.applySelection
  | .cancelSelection => m.cancelSelection
  | .setCoinsLocked ids locked => (m.setCoinsLocked core qt ids locked).1

/-- The constructor reads the coins. -/
def start (wallet : ω) : CoinsListModel ω := ({ m_wallet_model := ⟨wallet, ∅⟩ } : CoinsListModel ω).update core qt

end Functions

end CoinsListModel

end GuiQml.Coins
