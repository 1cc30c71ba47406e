import GuiQml.Amount.Display
import GuiQml.Lib.Rows

/-!
# The recipients of a payment

`SendRecipientsListModel`: the list with its current row, the unit that its amounts share and their total. A
recipient is an object of its own, which may be edited after it has left the list. What only feeds other
signals is left out.
-/

namespace GuiQml.Recipients

open GuiQml.Amount Decimal Rows

inductive Role
  | AmountRole
  | AmountUnitLabelRole
  deriving DecidableEq, Repr

structure SendRecipientsListModel where
  m_recipients : RowModel Nat Role := { rows := [0] }
  m_current : Int := 0
  m_totalAmount : Int := 0
  m_syncing_units : Bool := false
  /-- The recipients made so far are those below `made`, in the list or not. -/
  made : Nat := 1
  amounts : Nat → BitcoinAmount := fun _ => {}

namespace SendRecipientsListModel

variable (s : SendRecipientsListModel)

def currentRecipient : Option Nat :=
  if s.m_current < 0 then none else s.m_recipients.rows[s.m_current.toNat]?

def setAmount (recipient : Nat) (amount : BitcoinAmount) : SendRecipientsListModel :=
  { s with amounts := Function.update s.amounts recipient amount }

/-! ## What listens to an amount -/

def emitRolesChanged (recipient : Nat) (roles : List Role) : SendRecipientsListModel :=
  match s.m_recipients.rows.idxOf? recipient with
  | none => s
  | some row => { s with m_recipients := s.m_recipients.dataChanged row row roles }

/-- One turn of the loop that syncs the units. `unitChanged` are the listeners of the other amount. -/
def syncUnit (unitChanged : SendRecipientsListModel → Nat → SendRecipientsListModel) (unit : DisplayUnit)
    (s : SendRecipientsListModel) (other : Nat) : SendRecipientsListModel :=
  let (amount, signals) := (s.amounts other).setUnit unit
  let s := s.setAmount other amount
  if .unitChanged ∈ signals then unitChanged s other else s

/-- The two connections to `unitChanged`. They come back at most once, which `depth` bounds. -/
def unitChanged : Nat → SendRecipientsListModel → Nat → SendRecipientsListModel
  | 0, s, _ => s
  | depth + 1, s, recipient =>
    let s := s.emitRolesChanged recipient [.AmountRole, .AmountUnitLabelRole]
    if s.m_syncing_units then s
    else
      let s := { s with m_syncing_units := true }
      let s := (s.m_recipients.rows.filter (· ≠ recipient)).foldl
        (syncUnit (unitChanged depth) (s.amounts recipient).m_unit) s
      { s with m_syncing_units := false }

def updateTotalAmount : Except Int64.Fault SendRecipientsListModel := do
  let total ← s.m_recipients.rows.foldlM
    (fun total recipient => Int64.add total (s.amounts recipient).m_satoshi) 0
  if s.m_totalAmount = total then .ok s else .ok { s with m_totalAmount := total }

def signal (recipient : Nat) (s : SendRecipientsListModel) :
    Signal → Except Int64.Fault SendRecipientsListModel
  | .unitChanged => .ok (unitChanged 2 s recipient)
  | .amountChanged => (s.emitRolesChanged recipient [.AmountRole]).updateTotalAmount
  | .displayChanged | .displayWithUnitChanged => .ok s

/-- A recipient's amount becomes another one and signals it. -/
def changeAmount (recipient : Nat) (after : BitcoinAmount × List Signal) :
    Except Int64.Fault SendRecipientsListModel :=
  after.2.foldlM (signal recipient) (s.setAmount recipient after.1)

/-! ## The list -/

def setCurrentIndex (row : Int) : SendRecipientsListModel :=
  if row < 0 || s.m_recipients.rows.length ≤ row then s
  else if row = s.m_current then s
  else { s with m_current := row }

def next : SendRecipientsListModel := s.setCurrentIndex (s.m_current + 1)

def prev : SendRecipientsListModel := s.setCurrentIndex (s.m_current - 1)

def add : Except Int64.Fault SendRecipientsListModel := do
  let row := s.m_recipients.rows.length
  let recipient := s.made
  let s := { s.setAmount recipient {} with made := s.made + 1 }
  let s ← match s.m_recipients.rows[s.m_current.toNat]? with
    | some current => s.changeAmount recipient ((s.amounts recipient).setUnit (s.amounts current).m_unit)
    | none => .ok s
  .ok ({ s with m_recipients := s.m_recipients.insertRows row [recipient] }.setCurrentIndex row)

def removeAt (row : Int) : Except Int64.Fault SendRecipientsListModel :=
  if s.m_recipients.rows.length ≤ 1 || row < 0 || s.m_recipients.rows.length ≤ row then .ok s
  else
    let s := { s with m_recipients := s.m_recipients.removeRows row.toNat (row.toNat + 1) }
    let s :=
      if row < s.m_current || (s.m_recipients.rows.length : Int) ≤ s.m_current then
        { s with m_current := s.m_current - 1 }
      else s
    s.updateTotalAmount

def remove : Except Int64.Fault SendRecipientsListModel := s.removeAt s.m_current

def clear : SendRecipientsListModel :=
  { s.setAmount s.made {} with
    m_recipients := s.m_recipients.resetRows [s.made]
    m_current := 0
    m_totalAmount := 0
    made := s.made + 1 }

def clearToFront : SendRecipientsListModel :=
  let s := { s with m_current := 0 }
  let s :=
    if 1 < s.m_recipients.rows.length then
      { s with m_recipients := s.m_recipients.removeRows 1 s.m_recipients.rows.length }
    else s
  match s.m_recipients.rows[0]? with
  | none => s
  | some front =>
    if s.m_totalAmount ≠ (s.amounts front).m_satoshi then
      { s with m_totalAmount := (s.amounts front).m_satoshi }
    else s

inductive Event
  | add
  | remove
  | removeAt (row : Int)
  | next
  | prev
  | setCurrentIndex (row : Int)
  | clear
  | clearToFront
  /-- The text of a recipient's amount is edited, or its unit. -/
  | fromDisplay (recipient : Nat) (text : Str)
  | setUnit (recipient : Nat) (unit : DisplayUnit)
  | flipUnit (recipient : Nat)

def step (s : SendRecipientsListModel) : Event → Except Int64.Fault SendRecipientsListModel
  | .add => s.add
  | .remove => s.remove
  | .removeAt row => s.removeAt row
  | .next => .ok s.next
  | .prev => .ok s.prev
  | .setCurrentIndex row => .ok (s.setCurrentIndex row)
  | .clear => .ok s.clear
  | .clearToFront => .ok s.clearToFront
  | .fromDisplay recipient text =>
    if recipient < s.made then do s.changeAmount recipient (← (s.amounts recipient).fromDisplay text)
    else .ok s
  | .setUnit recipient unit =>
    if recipient < s.made then s.changeAmount recipient ((s.amounts recipient).setUnit unit) else .ok s
  | .flipUnit recipient =>
    if recipient < s.made then s.changeAmount recipient (s.amounts recipient).flipUnit else .ok s

/-! ## What is asked of the list -/

/-- The exact sum of the recipients' amounts. -/
def sum : Int := (s.m_recipients.rows.map fun recipient => (s.amounts recipient).m_satoshi).sum

structure Consistent : Prop where
  current : 0 ≤ s.m_current ∧ s.m_current < s.m_recipients.rows.length
  one_unit : ∀ a ∈ s.m_recipients.rows, ∀ b ∈ s.m_recipients.rows,
    (s.amounts a).m_unit = (s.amounts b).m_unit
  total : s.m_totalAmount = s.sum

/-- The insertions and removals are announced, and removing another row keeps the current recipient. -/
structure Keeps (s : SendRecipientsListModel) (e : Event) (t : SendRecipientsListModel) : Prop where
  announced : Follows .rows s.m_recipients t.m_recipients
  current_kept : ∀ row, e = .removeAt row → row ≠ s.m_current → t.currentRecipient = s.currentRecipient

/-- Every state of the run is reached and is consistent. -/
def Holds : SendRecipientsListModel → List Event → Prop
  | s, [] => s.Consistent
  | s, e :: events => s.Consistent ∧ ∃ t, s.step e = .ok t ∧ Keeps s e t ∧ Holds t events

/-- What is typed is stored, and with it the exact sum of the amounts is a 64-bit value. -/
def SumFits (s : SendRecipientsListModel) : Event → Prop
  | .fromDisplay recipient text => recipient < s.made → ∃ amount signals,
      (s.amounts recipient).fromDisplay text = .ok (amount, signals) ∧
        (s.setAmount recipient amount).sum ≤ Int64.largest
  | _ => True

/-- The sum fits at each step. -/
def SumsFit : SendRecipientsListModel → List Event → Prop
  | _, [] => True
  | s, e :: events => s.SumFits e ∧ ∀ t, s.step e = .ok t → SumsFit t events

end SendRecipientsListModel

end GuiQml.Recipients
