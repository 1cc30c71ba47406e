import Std.Data.ExtTreeMap
import Mathlib.Data.List.Basic

/-!
# Reading the wallet's activity

`readSnapshot` of `transactionactivitymodel.cpp`, which runs on a worker. The flag `cancelled` is left
out: only `stop` sets it, and what such a read returns is dropped.
-/

namespace GuiQml.Activity

/-- The text of a txid, as a number. The empty text is 0. -/
abbrev Txid := Nat

abbrev Hash := Nat

structure COutPoint where
  hash : Txid
  n : Nat

structure CTxOut where
  nValue : Int
  address : String
  deriving Inhabited

structure CTransaction where
  hash : Txid
  isCoinBase : Bool
  vin : List COutPoint
  vout : List CTxOut

structure WalletTx where
  tx : Option CTransaction := none
  debit : Int := 0
  txin_is_mine : List Bool := []
  txout_is_mine : List Bool := []
  txout_is_change : List Bool := []

structure WalletTxStatus where
  depth_in_main_chain : Int
  blocks_to_maturity : Int
  block_height : Int
  is_in_main_chain : Bool
  is_abandoned : Bool

/-- A `TransactionActivity`, with the addresses of its actions. -/
structure TransactionActivity where
  txid : Txid := 0
  mined : Bool := false
  wallet_debit : Int := 0
  replaced_by_txid : Txid := 0
  actions : List String := []

inductive Status
  | unconfirmed | confirming | confirmed | conflicted | abandoned | immature | notAccepted
  deriving DecidableEq, Repr

/-- The flow of a transaction, with the addresses of its entries. The empty map has neither. -/
structure TransactionFlow where
  inputs : List String := []
  outputs : List String := []
  isEmpty : Bool := true

/-- The functions of other files that the model calls. -/
structure Code where
  isHash : Txid → Bool
  fromWalletTx : WalletTx → Option TransactionActivity
  buildTransactionFlow : WalletTx → List (Option CTxOut) → Bool → TransactionFlow
  encodeHexTx : CTransaction → String

/-- What the wallet answers during one read. -/
structure Wallet where
  getWalletTxs : List WalletTx
  getWalletTx : Txid → WalletTx
  getTx : Txid → Option CTransaction
  tryGetTxStatus : Txid → Option WalletTxStatus
  tryGetBalances : Option Hash
  addressLabel : String → String
  transactionCanBeBumped : Txid → Bool

structure Record where
  activity : TransactionActivity := {}
  labels : List String := []
  status : Status := .unconfirmed
  depth : Int := 0
  blocks_to_maturity : Int := 0
  block_height : Int := 0
  status_known : Bool := false
  transaction : Option CTransaction := none
  inputs_mine : List Bool := []
  outputs_mine : List Bool := []
  outputs_change : List Bool := []

abbrev Records := Std.ExtTreeMap Txid Record

/-! ## Work -/

structure Work where
  reload : Bool := false
  labels : Bool := false
  statuses : Bool := false
  poll : Bool := false
  details : Bool := false
  transactions : List Txid := []
  deriving DecidableEq

namespace Work

def empty (work : Work) : Bool :=
  !work.reload && !work.labels && !work.statuses && !work.poll && !work.details &&
    work.transactions.isEmpty

def merge (work other : Work) : Work where
  reload := work.reload || other.reload
  labels := work.labels || other.labels
  statuses := work.statuses || other.statuses
  poll := work.poll || other.poll
  details := work.details || other.details
  transactions := work.transactions ∪ other.transactions

end Work

/-! ## One read -/

structure Snapshot where
  records : Records
  retry : List Txid
  tip : Option Hash
  detail_txid : Txid
  raw_transaction : String
  flow : TransactionFlow
  detail_labels : Std.ExtTreeMap String String
  can_bump : Bool
  detail_missing : Bool
  rows_changed : Bool := false
  details_changed : Bool := false
  flow_resolved : Bool

section Read

variable (code : Code) (wallet : Wallet)

def updateLabels (record : Record) : Record :=
  { record with labels := record.activity.actions.map wallet.addressLabel }

/-- What the wallet's answer makes of the status. -/
def statusOf (mined : Bool) (found : WalletTxStatus) : Status :=
  if mined then
    if !found.is_in_main_chain then .notAccepted
    else if found.blocks_to_maturity > 0 then .immature else .confirmed
  else if found.depth_in_main_chain < 0 then .conflicted
  else if found.is_abandoned then .abandoned
  else if found.depth_in_main_chain = 0 then .unconfirmed
  else if found.depth_in_main_chain < 6 then .confirming else .confirmed

def updateStatus (record : Record) : Option Record :=
  (wallet.tryGetTxStatus record.activity.txid).map fun found =>
    { record with
      status_known := true
      depth := found.depth_in_main_chain
      blocks_to_maturity := found.blocks_to_maturity
      block_height := if found.depth_in_main_chain > 0 then found.block_height else 0
      status := statusOf record.activity.mined found }

namespace Snapshot

/-- The record with its status, or among those to retry. -/
def storeStatus (snapshot : Snapshot) (record : Record) : Snapshot :=
  match updateStatus wallet record with
  | some record =>
    { snapshot with
      retry := snapshot.retry.erase record.activity.txid
      records := snapshot.records.insert record.activity.txid record }
  | none =>
    { snapshot with
      retry := snapshot.retry.insert record.activity.txid
      records := snapshot.records.insert record.activity.txid record }

def readRecord (snapshot : Snapshot) (wtx : WalletTx) : Snapshot :=
  match code.fromWalletTx wtx with
  | none => snapshot
  | some activity =>
    let record := snapshot.records[activity.txid]?.getD {}
    snapshot.storeStatus wallet (updateLabels wallet { record with
      activity
      transaction := wtx.tx
      inputs_mine := wtx.txin_is_mine
      outputs_mine := wtx.txout_is_mine
      outputs_change := wtx.txout_is_change })

def reload (snapshot : Snapshot) : Snapshot :=
  let present := (wallet.getWalletTxs.filterMap (·.tx)).map (·.hash)
  let snapshot := wallet.getWalletTxs.foldl (readRecord code wallet) snapshot
  { snapshot with
    retry := snapshot.retry.filter fun txid => txid ∈ present || !snapshot.records.contains txid
    records := snapshot.records.filter fun txid _ => txid ∈ present }

def readTransaction (snapshot : Snapshot) (txid : Txid) : Snapshot :=
  if !code.isHash txid then snapshot
  else
    let wtx := wallet.getWalletTx txid
    if wtx.tx.isSome then snapshot.readRecord code wallet wtx
    else { snapshot with records := snapshot.records.erase txid, retry := snapshot.retry.erase txid }

def readLabels (snapshot : Snapshot) : Snapshot :=
  { snapshot with records := snapshot.records.map fun _ => updateLabels wallet }

def readStatuses (snapshot : Snapshot) (statuses : Bool) : Snapshot :=
  snapshot.records.toList.foldl (fun snapshot (_, record) =>
    if !statuses && record.activity.txid ∉ snapshot.retry then snapshot
    else snapshot.storeStatus wallet record) snapshot

/-- The outputs that the inputs of a transaction spend, where their transactions are known. -/
def prevouts (tx : CTransaction) : List (Option CTxOut) :=
  if tx.isCoinBase then []
  else tx.vin.map fun prevout => (wallet.getTx prevout.hash).bind (·.vout[prevout.n]?)

def readFlow (snapshot : Snapshot) (wtx : WalletTx) (tx : CTransaction) : Snapshot :=
  { snapshot with
    flow := code.buildTransactionFlow wtx (prevouts wallet tx) false
    flow_resolved := true
    raw_transaction := code.encodeHexTx tx
    detail_labels := ∅ }

def readDetailLabels (snapshot : Snapshot) (labels : Bool) : Snapshot :=
  let known := if labels then ∅ else snapshot.detail_labels
  { snapshot with
    detail_labels := (snapshot.flow.inputs ++ snapshot.flow.outputs).foldl (fun labels address =>
      labels.insertIfNew address (wallet.addressLabel address)) known }

def readBump (snapshot : Snapshot) : Snapshot :=
  let record := snapshot.records[snapshot.detail_txid]?.getD {}
  if record.status_known && record.status = .unconfirmed && record.activity.replaced_by_txid = 0 then
    { snapshot with can_bump := wallet.transactionCanBeBumped snapshot.detail_txid }
  else snapshot

def readDetails (snapshot : Snapshot) (work : Work) : Snapshot :=
  let txid := snapshot.detail_txid
  let snapshot := if code.isHash txid && !snapshot.records.contains txid then
      { snapshot.readRecord code wallet (wallet.getWalletTx txid) with rows_changed := true }
    else snapshot
  let detail_missing := !code.isHash txid || !snapshot.records.contains txid
  let snapshot := { snapshot with detail_missing, can_bump := false }
  if detail_missing then { snapshot with flow := {} }
  else if !snapshot.flow_resolved || snapshot.flow.isEmpty || work.reload ||
      !work.transactions.isEmpty then
    let wtx := wallet.getWalletTx txid
    match wtx.tx with
    | none => { snapshot with detail_missing := true, flow := {} }
    | some tx => ((snapshot.readFlow code wallet wtx tx).readDetailLabels wallet work.labels).readBump
        wallet
  else (snapshot.readDetailLabels wallet work.labels).readBump wallet

end Snapshot

open Snapshot in
def readSnapshot (snapshot : Snapshot) (work : Work) : Snapshot :=
  let snapshot := if work.reload then snapshot.reload code wallet else snapshot
  let snapshot := work.transactions.foldl (readTransaction code wallet) snapshot
  let snapshot := if work.labels then snapshot.readLabels wallet else snapshot
  let newTip := if work.poll then wallet.tryGetBalances.filter (some · ≠ snapshot.tip) else none
  let snapshot := { snapshot with tip := newTip.or snapshot.tip }
  let statuses := work.statuses || newTip.isSome
  let retry := work.poll && !snapshot.retry.isEmpty
  let snapshot := if statuses || retry then snapshot.readStatuses wallet statuses else snapshot
  let rows_changed := work.reload || work.labels || statuses || retry || !work.transactions.isEmpty
  let details_changed := work.details || rows_changed
  let snapshot := { snapshot with rows_changed, details_changed }
  if snapshot.detail_txid = 0 || !details_changed then snapshot
  else snapshot.readDetails code wallet work

end Read

end GuiQml.Activity
