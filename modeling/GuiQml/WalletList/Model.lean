import GuiQml.Lib.Keyed
import Mathlib.Data.List.Lex
import Mathlib.Data.List.Sort
import Mathlib.Data.Prod.Lex

/-!
# The list of wallets

`WalletListModel`: its rows, in the order in which they are shown, the set of the open wallets and the report
that stands. An empty name is a `QString` that was never set, or the name of the default wallet. What only
feeds the signals is left out.
-/

namespace GuiQml.WalletList

/-- The UTF-16 code units. -/
abbrev QString := List Nat

inductive LoadState
  | Closed
  | Open
  | Loading
  | LoadError
  deriving DecidableEq, Repr

structure Item where
  name : QString
  format : QString := []
  from_wallet_dir : Bool := false
  balance : Option Int := none
  keySchemeKind : Int := -1
  deriving DecidableEq, Repr

structure WalletListModel where
  m_items : List Item := []
  /-- In the order in which the set gives them, which no row depends on. -/
  m_open_wallet_names : List QString := []
  m_loading_wallet : QString := []
  /-- The wallet and the error. -/
  m_load_error : QString × QString := ([], [])
  m_wallet_dir_loaded : Bool := false

inductive Event
  /-- The paths and formats in the wallet directory. -/
  | listWalletDir (entries : List (QString × QString))
  | setWalletLoadState (name : QString) (state : LoadState) (error : QString)
  | setWalletInfo (name : QString) (balance : Int) (keySchemeKind : Int)

/-! ## The order of the rows -/

/-- How Qt compares without the case: by what `foldCase` makes of a string. -/
def itemLess (foldCase : QString → List Nat) (opened : List QString) (a b : Item) : Bool :=
  let a_open := decide (a.name ∈ opened)
  let b_open := decide (b.name ∈ opened)
  if a_open ≠ b_open then a_open
  else if foldCase a.name ≠ foldCase b.name then foldCase a.name < foldCase b.name
  else if a.name ≠ b.name then a.name < b.name
  else if foldCase a.format ≠ foldCase b.format then foldCase a.format < foldCase b.format
  else a.format < b.format

def sortItems (foldCase : QString → List Nat) (opened : List QString) (items : List Item) : List Item :=
  items.mergeSort fun a b => !itemLess foldCase opened b a

namespace WalletListModel

section Functions

variable (foldCase : QString → List Nat) (m : WalletListModel)

/-- What the structure of a row is. -/
def rowOf (item : Item) : QString × QString × Bool := (item.name, item.format, item.from_wallet_dir)

/-- Nothing is replaced where the structure is the same. -/
def applyUpdatedItems (updated_items : List Item) : WalletListModel :=
  if m.m_items.map rowOf = updated_items.map rowOf then m else { m with m_items := updated_items }

/-- In `previous_items` the last item of a name is kept. -/
def withPrevious (item : Item) : Item :=
  match m.m_items.reverse.find? (·.name = item.name) with
  | none => item
  | some previous => { item with balance := previous.balance, keySchemeKind := previous.keySchemeKind }

/-- The body of the loop over the open wallets. -/
def addOpen (updated_items : List Item) (wallet_name : QString) : List Item :=
  if updated_items.any (·.name = wallet_name) then updated_items
  else updated_items ++ [m.withPrevious { name := wallet_name }]

/-- The row of a wallet in the directory. -/
def listedItem (entry : QString × QString) : Item :=
  m.withPrevious { name := entry.1, format := entry.2, from_wallet_dir := true }

def listWalletDir (entries : List (QString × QString)) : WalletListModel :=
  let updated_items := m.m_open_wallet_names.foldl m.addOpen (entries.map m.listedItem)
  { m.applyUpdatedItems (sortItems foldCase m.m_open_wallet_names updated_items) with
    m_wallet_dir_loaded := true }

/-- The wallet is loading, or could not be loaded. -/
def setTransientState (name : QString) (error : Option QString) : WalletListModel :=
  match error with
  | none => { m with m_load_error := if m.m_load_error.1 ≠ [] then ([], []) else m.m_load_error,
                     m_loading_wallet := name }
  | some error => { m with m_loading_wallet := [], m_load_error := (name, error) }

def setWalletOpen (name : QString) (loaded : Bool) : WalletListModel :=
  let opened :=
    if loaded then (if name ∈ m.m_open_wallet_names then m.m_open_wallet_names else m.m_open_wallet_names ++ [name])
    else m.m_open_wallet_names.filter (· ≠ name)
  let m := { m with
    m_open_wallet_names := opened
    m_loading_wallet := if m.m_loading_wallet = name then [] else m.m_loading_wallet
    m_load_error := if m.m_load_error.1 = name then ([], []) else m.m_load_error }
  let updated_items :=
    if loaded then
      (if m.m_wallet_dir_loaded && !m.m_items.any (·.name = name) then m.m_items ++ [{ name }] else m.m_items)
    else m.m_items.filter fun item => !(item.name = name && !item.from_wallet_dir)
  m.applyUpdatedItems (sortItems foldCase opened updated_items)

def setWalletLoadState (name : QString) (state : LoadState) (error : QString) : WalletListModel :=
  if name.isEmpty then m
  else
    match state with
    | .Loading => m.setTransientState name none
    | .LoadError => m.setTransientState name (some error)
    | .Open => m.setWalletOpen foldCase name true
    | .Closed => m.setWalletOpen foldCase name false

/-- The first item of the name. -/
def setInfo (name : QString) (balance keySchemeKind : Int) : List Item → List Item
  | [] => []
  | item :: items =>
    if item.name ≠ name then item :: setInfo name balance keySchemeKind items
    else { item with balance := some balance, keySchemeKind } :: items

def setWalletInfo (name : QString) (balance keySchemeKind : Int) : WalletListModel :=
  if name.isEmpty then m else { m with m_items := setInfo name balance keySchemeKind m.m_items }

/-- `LoadStateRole` of the row with that name. -/
def loadState (name : QString) : LoadState :=
  if m.m_load_error.1 = name then .LoadError
  else if m.m_loading_wallet = name then .Loading
  else if name ∈ m.m_open_wallet_names then .Open
  else .Closed

def step (m : WalletListModel) : Event → WalletListModel
  | .listWalletDir entries => m.listWalletDir foldCase entries
  | .setWalletLoadState name state error => m.setWalletLoadState foldCase name state error
  | .setWalletInfo name balance keySchemeKind => m.setWalletInfo name balance keySchemeKind

def run (events : List Event) : WalletListModel := events.foldl (step foldCase) {}

end Functions

end WalletListModel

/-! ## Sorting -/

section Sorting

variable {foldCase : QString → List Nat} {opened : List QString} {items : List Item} {a b : Item}

/-- The open wallets come first, then the names count. -/
def sortKey (foldCase : QString → List Nat) (opened : List QString) (item : Item) :
    Bool ×ₗ List Nat ×ₗ QString ×ₗ List Nat ×ₗ QString :=
  toLex (!decide (item.name ∈ opened), toLex (foldCase item.name, toLex (item.name,
    toLex (foldCase item.format, item.format))))

theorem compare_iff {α : Type} [LinearOrder α] {x y : α} [Decidable (x ≠ y)] [Decidable (x < y)] {rest : Bool} :
    (if x ≠ y then decide (x < y) else rest) = true ↔ x < y ∨ x = y ∧ rest = true := by
  by_cases h : x = y <;> simp [h]

theorem compare_open_iff {x y rest : Bool} :
    (if x ≠ y then x else rest) = true ↔ (!x) < (!y) ∨ (!x) = (!y) ∧ rest = true := by
  cases x <;> cases y <;> simp

theorem itemLess_iff :
    itemLess foldCase opened a b = true ↔ sortKey foldCase opened a < sortKey foldCase opened b := by
  simp only [itemLess, sortKey, Prod.Lex.toLex_lt_toLex, compare_open_iff, compare_iff, decide_eq_true_eq]

theorem name_of_sortKey (h : sortKey foldCase opened a = sortKey foldCase opened b) : a.name = b.name := by
  simp only [sortKey, EmbeddingLike.apply_eq_iff_eq, Prod.mk.injEq] at h
  exact h.2.2.1

theorem sortItems_perm (foldCase : QString → List Nat) (opened : List QString) (items : List Item) :
    (sortItems foldCase opened items).Perm items := List.mergeSort_perm _ _

theorem sortItems_sorted (hkeyed : Keyed Item.name items) :
    (sortItems foldCase opened items).Pairwise fun a b => itemLess foldCase opened a b = true := by
  have hle : ∀ a b : Item, (!itemLess foldCase opened b a) = true ↔
      sortKey foldCase opened a ≤ sortKey foldCase opened b := by
    intro a b
    rw [Bool.not_eq_true', ← Bool.not_eq_true, itemLess_iff, not_lt]
  have hsorted := @List.pairwise_mergeSort _ (fun a b => !itemLess foldCase opened b a)
    (fun a b c hab hbc => (hle a c).mpr (((hle a b).mp hab).trans ((hle b c).mp hbc)))
    (fun a b => by
      rw [Bool.or_eq_true, hle, hle]
      exact le_total _ _) items
  have hdistinct : (sortItems foldCase opened items).Pairwise fun a b => a.name ≠ b.name :=
    List.pairwise_map.mp (((sortItems_perm foldCase opened items).map _).nodup_iff.mpr hkeyed)
  refine (hsorted.and hdistinct).imp fun {a b} hab => ?_
  rw [itemLess_iff]
  exact lt_of_le_of_ne ((hle a b).mp hab.1) fun heq => hab.2 (name_of_sortKey heq)

end Sorting

end GuiQml.WalletList
