import GuiQml.Activity.ReadSnapshot
import GuiQml.Lib.Courier

/-!
# Scheduling the reads

The state of `TransactionActivityModel` and what its slots, its timer and its worker do to it. The rows
are computed from the records and are left out. The executor takes every task, and a counter does not
reach the end of its range.
-/

namespace GuiQml.Activity

open Courier

/-! ## The model -/

/-- A task of the backend executor, with what its lambdas captured. -/
structure Read where
  snapshot : Snapshot
  work : Work
  generation : Nat
  detail_generation : Nat

structure TransactionActivityModel where
  m_transactions : Records := ∅
  m_retry : List Txid := []
  m_last_tip : Option Hash := none
  m_detail_txid : Txid := 0
  m_detail_raw_transaction : String := ""
  m_detail_flow : TransactionFlow := {}
  m_detail_flow_resolved : Bool := false
  m_detail_labels : Std.ExtTreeMap String String := ∅
  m_detail_can_bump : Bool := false
  m_detail_missing : Bool := false
  m_details_loading : Bool := false
  m_pending : Work := {}
  m_work_pending : Bool := false
  m_generation : Nat := 0
  m_detail_generation : Nat := 0
  /-- A timer for `startWork` is running. -/
  m_scheduled : Bool := false
  m_stopped : Bool := false
  m_loading : Bool := false
  m_load_error : String := ""
  /-- Whether the wallet model has a wallet. -/
  wallet : Bool
  /-- The reads submitted to the executor, in order. -/
  reads : List Read := []

namespace TransactionActivityModel

variable (code : Code) (s : TransactionActivityModel)

/-- The first half of `schedule`: there is something to wait for. -/
def showLoading : TransactionActivityModel :=
  if !s.m_loading || s.m_load_error ≠ "" then
    { s with
      m_loading := true
      m_load_error := if s.m_pending.reload || s.m_pending.details then "" else s.m_load_error }
  else s

/-- The second half: start the timer. -/
def startTimer : TransactionActivityModel :=
  if s.m_work_pending || s.m_scheduled then s else { s with m_scheduled := true }

def schedule : TransactionActivityModel :=
  if s.m_stopped || s.m_pending.empty || !s.wallet then s else s.showLoading.startTimer

def reload : TransactionActivityModel :=
  schedule { s with
    m_generation := s.m_generation + 1
    m_pending := { s.m_pending with reload := true } }

def updateTransaction (txid : Txid) : TransactionActivityModel :=
  schedule { s with
    m_generation := s.m_generation + 1
    m_pending := { s.m_pending with transactions := s.m_pending.transactions.insert txid } }

/-- The slot of `addressListChanged`. -/
def addressListChanged : TransactionActivityModel :=
  schedule { s with
    m_generation := s.m_generation + 1
    m_pending := { s.m_pending with labels := true } }

def refreshStatuses : TransactionActivityModel :=
  schedule { s with m_pending := { s.m_pending with statuses := true } }

def poll : TransactionActivityModel :=
  schedule { s with m_pending := { s.m_pending with poll := true } }

/-- The flow that can be shown before a read. -/
def previewFlow (txid : Txid) : TransactionFlow :=
  match s.m_transactions[txid]? with
  | none => {}
  | some record =>
    code.buildTransactionFlow
      { tx := record.transaction
        debit := record.activity.wallet_debit
        txin_is_mine := record.inputs_mine
        txout_is_mine := record.outputs_mine
        txout_is_change := record.outputs_change } [] true

def selectDetails (txid : Txid) : TransactionActivityModel :=
  if s.m_detail_txid = txid then s
  else { s with
    m_detail_flow := {}
    m_detail_flow_resolved := false
    m_detail_labels := ∅
    m_detail_raw_transaction := ""
    m_detail_txid := txid }

def previewDetails (txid : Txid) : TransactionActivityModel :=
  if !s.m_detail_flow.isEmpty then s
  else { s with
    m_detail_flow_resolved := false
    m_detail_raw_transaction := ""
    m_detail_flow := s.previewFlow code txid }

def requestTransactionDetails (txid : Txid) : TransactionActivityModel :=
  if s.m_stopped then s
  else
    let s := { s with m_detail_generation := s.m_detail_generation + 1 }
    let s := (s.selectDetails txid).previewDetails code txid
    schedule { s with
      m_detail_can_bump := false
      m_detail_missing := false
      m_details_loading := txid ≠ 0
      m_pending := { s.m_pending with details := txid ≠ 0 } }

def stop : TransactionActivityModel :=
  if s.m_stopped then s
  else { s with m_stopped := true, m_loading := false, m_details_loading := false }

/-- What a read starts from. -/
def snapshot : Snapshot where
  records := s.m_transactions
  retry := s.m_retry
  tip := s.m_last_tip
  detail_txid := s.m_detail_txid
  raw_transaction := s.m_detail_raw_transaction
  flow := s.m_detail_flow
  flow_resolved := s.m_detail_flow_resolved
  detail_labels := s.m_detail_labels
  can_bump := s.m_detail_can_bump
  detail_missing := s.m_detail_missing

/-- The timer fires. The read that is submitted, if there is one, stands next to the new state. -/
def startWork : TransactionActivityModel × Option Read :=
  let s := { s with m_scheduled := false }
  if s.m_stopped || s.m_work_pending || s.m_pending.empty || !s.wallet then (s, none)
  else
    let read : Read := ⟨s.snapshot, s.m_pending, s.m_generation, s.m_detail_generation⟩
    ({ s with m_pending := {}, m_work_pending := true, reads := s.reads ++ [read] }, some read)

def settle : TransactionActivityModel :=
  schedule { s with m_loading := !s.m_pending.empty }

/-- The details are taken over unless they were requested anew. -/
def apply (read : Read) (result : Snapshot) : TransactionActivityModel :=
  let s := { s with
    m_transactions := result.records
    m_retry := result.retry
    m_last_tip := result.tip }
  if read.detail_generation = s.m_detail_generation then
    { s with
      m_detail_flow := result.flow
      m_detail_flow_resolved := result.flow_resolved
      m_detail_raw_transaction := result.raw_transaction
      m_detail_labels := result.detail_labels
      m_detail_can_bump := result.can_bump
      m_detail_missing := result.detail_missing
      m_details_loading := false }
  else s

def readReturned (read : Read) (result : Snapshot) : TransactionActivityModel :=
  let s := { s with m_work_pending := false }
  if s.m_stopped then s
  else if read.generation ≠ s.m_generation then
    settle { s with m_pending := s.m_pending.merge read.work }
  else settle (s.apply read result)

def readThrew (read : Read) : TransactionActivityModel :=
  let s := { s with m_work_pending := false }
  if s.m_stopped then s
  else if read.generation ≠ s.m_generation then
    settle { s with m_pending := s.m_pending.merge read.work }
  else if read.detail_generation = s.m_detail_generation then
    settle { s with
      m_load_error := "Wallet activity could not be loaded. Please try again."
      m_details_loading := false }
  else settle s

end TransactionActivityModel

/-! ## Steps -/

/-- What can be asked for. -/
inductive Item
  | reload
  | labels
  | statuses
  | poll
  | transaction (txid : Txid)
  deriving DecidableEq, Repr

def Work.items (work : Work) : Set Item := { item |
  match item with
  | .reload => work.reload = true
  | .labels => work.labels = true
  | .statuses => work.statuses = true
  | .poll => work.poll = true
  | .transaction txid => txid ∈ work.transactions }

/-- The requests after which a snapshot read earlier is out of date. -/
def superseding : Set Item := { item |
  match item with
  | .reload | .labels | .transaction _ => True
  | .statuses | .poll => False }

abbrev Event := Courier.Event Item Read Snapshot

/-- How a read ends on a running model. -/
def ending (s : TransactionActivityModel) (read : Read) (result : Option Snapshot) : List Event :=
  if s.m_stopped then []
  else if read.generation ≠ s.m_generation then [.bounce read]
  else match result with
    | some result => [.deliver read result]
    | none => [.lose read]

open TransactionActivityModel in
inductive Step (code : Code) :
    TransactionActivityModel → List Event → TransactionActivityModel → Prop
  | reload {s} : Step code s [.request .reload] s.reload
  | updateTransaction {s} (txid) : Step code s [.request (.transaction txid)] (s.updateTransaction txid)
  | addressListChanged {s} : Step code s [.request .labels] s.addressListChanged
  | refreshStatuses {s} : Step code s [.request .statuses] s.refreshStatuses
  | poll {s} : Step code s [.request .poll] s.poll
  | requestTransactionDetails {s} (txid) : Step code s [] (s.requestTransactionDetails code txid)
  | stop {s} : Step code s [] s.stop
  | setWallet {s} (wallet) : Step code s [] { s with wallet }
  | startWork {s} : s.m_scheduled = true →
      Step code s (s.startWork.2.toList.map .depart) s.startWork.1
  | readReturned {s read reads} (wallet : Wallet) : s.reads = read :: reads →
      Step code s (ending s read (some (readSnapshot code wallet read.snapshot read.work)))
        ({ s with reads }.readReturned read (readSnapshot code wallet read.snapshot read.work))
  | readThrew {s read reads} : s.reads = read :: reads →
      Step code s (ending s read none) ({ s with reads }.readThrew read)

end GuiQml.Activity
