import GuiQml.Activity.Interpret
import GuiQml.Activity.ReadSnapshot
import GuiQml.Activity.Rows
import GuiQml.Lib.Keyed
import Mathlib.Data.Finset.Insert
import Mathlib.Data.String.Basic

/-!
# The rows of transactions and requests

The first half of `TransactionActivityModel::rebuildRows`, which makes a row of each transaction and of each
payment request that no transaction pays. What it makes of the rows that are there is in `Activity.Rows`. Ids are
hexadecimal and decimal digits behind a prefix, and an empty text is the address of nothing.
-/

namespace GuiQml.Rebuild

open Activity (Status)
open Activity.Rows (IdRole IsPendingRequestRole Row RowMap UserRole Variants)
open Interpret (ActivityType Direction Source TransactionAction TransactionActivity)
open Wallet (CAmount OutPoint)

/-- The map that `entryMap` makes of a request, with the entries that are read here. -/
structure Request where
  requestId : String
  address : String := ""
  label : String := ""
  message : String := ""
  noteSelf : String := ""
  amountSat : CAmount := 0
  dateIso : String := ""
  deriving DecidableEq, Repr

structure Record where
  activity : TransactionActivity
  labels : List String := []
  status : Status := .unconfirmed
  depth : Int := 0
  blocks_to_maturity : Int := 0
  status_known : Bool := false

/-- The functions of other files that are called, and those of Qt. -/
structure Texts where
  formatAmount : CAmount → Bool → String
  /-- The seconds since the epoch of a date in ISO 8601. -/
  fromIso : String → Int

/-- The map of an action. -/
structure ActionMap where
  actionId : String
  direction : Direction
  source : Source
  outputIndex : Int
  inputs : List OutPoint
  address : String
  label : String
  amountSat : CAmount
  amount : String
  paymentRequests : List Request
  hasPaymentRequest : Bool
  deriving DecidableEq, Repr

inductive Variant
  | invalid
  | bool (b : Bool)
  | int (n : Int)
  | str (text : String)
  | dateTime (secs : Int)
  | actions (actions : List ActionMap)
  | requests (requests : List Request)
  deriving DecidableEq, Repr

/-! ## The roles -/

def AddressRole : Int := UserRole + 1

def AmountRole : Int := UserRole + 2

def DateTimeRole : Int := UserRole + 3

def DepthRole : Int := UserRole + 4

def LabelRole : Int := UserRole + 5

def StatusRole : Int := UserRole + 6

def TypeRole : Int := UserRole + 7

def TxidRole : Int := UserRole + 8

def ReplacesTxidRole : Int := UserRole + 9

def ReplacedByTxidRole : Int := UserRole + 10

def TimestampRole : Int := UserRole + 11

def RequestIdRole : Int := UserRole + 13

def NetAmountSatRole : Int := UserRole + 14

def ActivityTypeRole : Int := UserRole + 101

def ActionsRole : Int := UserRole + 102

def ActionCountRole : Int := UserRole + 103

def WalletDebitSatRole : Int := UserRole + 104

def WalletCreditSatRole : Int := UserRole + 105

def FeeSatRole : Int := UserRole + 106

def FeeKnownRole : Int := UserRole + 107

def StatusKnownRole : Int := UserRole + 108

def IsPendingRole : Int := UserRole + 109

def IsInactiveRole : Int := UserRole + 110

def PaymentRequestsRole : Int := UserRole + 111

def HasPaymentRequestRole : Int := UserRole + 112

def SearchTextRole : Int := UserRole + 113

def BlocksToMaturityRole : Int := UserRole + 114

def CanBumpRole : Int := UserRole + 115

/-- `Transaction::Status` as a number. -/
def statusNumber : Status → Int
  | .confirmed => 0
  | .unconfirmed => 1
  | .confirming => 2
  | .conflicted => 3
  | .abandoned => 4
  | .immature => 5
  | .notAccepted => 6

def activityNumber : ActivityType → Int
  | .send => 0
  | .receive => 1
  | .multiple => 2
  | .consolidation => 3
  | .split => 4
  | .internalTransfer => 5
  | .mined => 6
  | .other => 7

/-- A `Transaction::Type` as a number. -/
def legacyType : ActivityType → Int
  | .send => 2
  | .receive => 4
  | .mined => 1
  | .consolidation | .split | .internalTransfer => 6
  | _ => 0

/-! ## Requests -/

/-- The entry in the row of the id, which is the last one that has it. -/
def entryOfId (history : List Request) (id : String) : Option Request :=
  history.reverse.find? (·.requestId = id)

/-- The entries of the ids that are under the address. -/
def matchingEntriesForAddress (history : List Request) (address : String) : List Request :=
  if address.isEmpty then []
  else ((history.filter (·.address = address)).map (·.requestId)).filterMap (entryOfId history)

def requestsByAddress (history : List Request) : Std.ExtTreeMap String (List Request) :=
  history.foldl (fun requests request =>
    if requests.contains request.address then requests
    else requests.insert request.address (matchingEntriesForAddress history request.address)) ∅

/-! ## A transaction -/

def Record.replaced (record : Record) : Bool :=
  !record.activity.replaced_by_txid.isEmpty && (!record.status_known || record.depth ≤ 0)

def Record.inactive (record : Record) : Bool :=
  record.replaced || record.status_known &&
    (record.status == .conflicted || record.status == .abandoned || record.status == .notAccepted)

/-- A known transaction that counts, so that what it pays is paid. -/
def Record.pays (record : Record) : Bool := record.status_known && !record.inactive

def transactionId (txid : String) : String := "tx:" ++ txid

def requestRowId (request_id : String) : String := "request:" ++ request_id

/-- What the loop over the actions of a transaction gathers. -/
structure Gathered where
  actions : List ActionMap := []
  requests : List Request := []
  request_ids : Finset String := ∅
  search : List String
  fulfilled : Finset String

namespace Gathered

/-- A request that the output pays for is taken once. -/
def addMatch (pays : Bool) (g : Gathered) (request : Request) : Gathered :=
  let g := if request.requestId ∈ g.request_ids then g
    else { g with
      request_ids := insert request.requestId g.request_ids
      requests := g.requests ++ [request]
      search := g.search ++ [request.label, request.message, request.noteSelf] }
  if pays then { g with fulfilled := insert request.requestId g.fulfilled } else g

end Gathered

section Making

variable (texts : Texts) (requests_by_address : Std.ExtTreeMap String (List Request))

/-- An owned output that was paid to, never a send nor what the wallet put in beside others. -/
def matchesOf (action : TransactionAction) : List Request :=
  if action.output_index ≥ 0 ∧ action.direction ≠ .send ∧ action.amount > 0
  then requests_by_address.getD action.address [] else []

/-- The note of a request, though it be empty, before the label of a recipient. -/
def actionLabel (record_label : String) (action : TransactionAction) : String :=
  match matchesOf requests_by_address action with
  | request :: _ => request.noteSelf
  | [] => if action.direction = .send then record_label else ""

def actionMap (record_label : String) (action : TransactionAction) : ActionMap where
  actionId := action.id
  direction := action.direction
  source := action.source
  outputIndex := action.output_index
  inputs := action.inputs
  address := action.address
  label := actionLabel requests_by_address record_label action
  amountSat := action.amount
  amount := texts.formatAmount action.amount (action.direction = .receive)
  paymentRequests := matchesOf requests_by_address action
  hasPaymentRequest := !(matchesOf requests_by_address action).isEmpty

def addAction (record : Record) (g : Gathered) (entry : TransactionAction × Nat) : Gathered :=
  let record_label := record.labels.getD entry.2 ""
  let g := (matchesOf requests_by_address entry.1).foldl (Gathered.addMatch record.pays) g
  { g with
    actions := g.actions ++ [actionMap texts requests_by_address record_label entry.1]
    search := g.search ++
      [entry.1.address, actionLabel requests_by_address record_label entry.1, record_label] }

def gather (record : Record) (fulfilled : Finset String) : Gathered :=
  record.activity.actions.zipIdx.foldl (addAction texts requests_by_address record)
    { search := [record.activity.txid], fulfilled }

def transactionEntries (record : Record) (g : Gathered) : List (Int × Variant) :=
  let tx := record.activity
  let id := transactionId tx.txid
  let first := match g.actions with
    | [action] => some action
    | _ => none
  let label := (first.map (·.label)).getD ""
  let search := g.search ++ [label]
  [ (IdRole, .str id), (TxidRole, .str tx.txid), (LabelRole, .str label),
    (AddressRole, .str ((first.map (·.address)).getD "")),
    (TimestampRole, .int tx.timestamp),
    (DateTimeRole, .dateTime tx.timestamp),
    (NetAmountSatRole, .int tx.walletImpact),
    (AmountRole, .str (texts.formatAmount tx.walletImpact (tx.walletImpact > 0))),
    (TypeRole, .int (legacyType tx.type)), (ActivityTypeRole, .int (activityNumber tx.type)),
    (DepthRole, .int record.depth), (StatusRole, .int (statusNumber record.status)),
    (StatusKnownRole, .bool record.status_known), (BlocksToMaturityRole, .int record.blocks_to_maturity),
    (CanBumpRole, .bool false), (IsInactiveRole, .bool record.inactive),
    (ReplacesTxidRole, .str tx.replaces_txid), (ReplacedByTxidRole, .str tx.replaced_by_txid),
    (IsPendingRole, .bool (record.status_known && !record.inactive && record.depth == 0)),
    (IsPendingRequestRole, .bool false), (RequestIdRole, .str ""),
    (WalletDebitSatRole, .int tx.wallet_debit), (WalletCreditSatRole, .int tx.wallet_credit),
    (FeeKnownRole, .bool tx.fee.isSome), (FeeSatRole, (tx.fee.map Variant.int).getD .invalid),
    (ActionsRole, .actions g.actions), (ActionCountRole, .int g.actions.length),
    (PaymentRequestsRole, .requests g.requests), (HasPaymentRequestRole, .bool (!g.requests.isEmpty)),
    (SearchTextRole, .str ("\n".intercalate search)) ]

def transactionRow (record : Record) (g : Gathered) : Row Variant := .ofList (transactionEntries texts record g)

/-- The rows so far, and the ids of the requests that are paid. -/
def addTransaction (s : RowMap String Variant × Finset String) (record : Record) :
    RowMap String Variant × Finset String :=
  let g := gather texts requests_by_address record s.2
  (s.1.insert (transactionId record.activity.txid) (transactionRow texts record g), g.fulfilled)

/-! ## A request -/

def requestEntries (request : Request) : List (Int × Variant) :=
  let id := requestRowId request.requestId
  let label := request.noteSelf
  let date := texts.fromIso request.dateIso
  let amount := request.amountSat
  [ (IdRole, .str id), (TxidRole, .str ""), (RequestIdRole, .str request.requestId),
    (AddressRole, .str request.address), (LabelRole, .str label),
    (TimestampRole, .int date), (DateTimeRole, .dateTime date),
    (AmountRole, .str (texts.formatAmount amount false)), (NetAmountSatRole, .int amount),
    (IsPendingRequestRole, .bool true), (IsPendingRole, .bool true), (IsInactiveRole, .bool false),
    (TypeRole, .int (legacyType .receive)), (ActivityTypeRole, .int (activityNumber .receive)),
    (DepthRole, .int 0), (StatusRole, .int (statusNumber .unconfirmed)), (StatusKnownRole, .bool false),
    (CanBumpRole, .bool false), (FeeKnownRole, .bool false),
    (BlocksToMaturityRole, .int 0),
    (ReplacesTxidRole, .str ""), (ReplacedByTxidRole, .str ""),
    (ActionsRole, .actions []), (ActionCountRole, .int 0),
    (PaymentRequestsRole, .requests [request]), (HasPaymentRequestRole, .bool true),
    (SearchTextRole, .str ("\n".intercalate [request.address, label, request.label, request.message])) ]

def requestRow (request : Request) : Row Variant := .ofList (requestEntries texts request)

def addRequest (fulfilled : Finset String) (rows : RowMap String Variant) (request : Request) :
    RowMap String Variant :=
  if request.requestId ∈ fulfilled then rows
  else rows.insert (requestRowId request.requestId) (requestRow texts request)

end Making

/-! ## All rows -/

/-- What a rebuild reads: `m_transactions` and the history of the requests. -/
structure Input where
  m_transactions : List Record
  history : List Request

variable (texts : Texts) (input : Input)

/-- The rows of the transactions, and the ids of the requests that they pay. -/
def transactionRows : RowMap String Variant × Finset String :=
  input.m_transactions.foldl (addTransaction texts (requestsByAddress input.history)) (∅, ∅)

def newRows : RowMap String Variant :=
  let done := transactionRows texts input
  ((requestsByAddress input.history).toList.flatMap (·.2)).foldl (addRequest texts done.2) done.1

def variants : Variants Variant String where
  invalid := .invalid
  toString
    | .str text => text
    | _ => ""
  toBool
    | .bool b => b
    | _ => false

/-- The new rows in the place of the old ones. -/
def rebuildRows (m_rows : List (Row Variant)) : Option (List (Row Variant)) :=
  (variants.reconcile input.m_transactions.length m_rows (newRows texts input)).map (·.1.rows)

end GuiQml.Rebuild
