import GuiQml.Receive.Payments
import GuiQml.Receive.Requests
import Mathlib.Data.Finset.Sort
import Std.Data.ExtTreeMap

/-!
# Reconciling receive requests

How `WalletQmlModel` keeps the received payments: a scan in the background, notifications, a poll of what
is unconfirmed, and the operations on requests. A handler of the model sees the wallet of one moment. A
scan and a poll read one transaction after the other. Whether the wallet stores a request is an answer
`store` of the environment, and no read throws. Requests held by a page and signals are left out.
-/

namespace GuiQml.Receive

/-! ## State -/

/-- A scan in the background. -/
structure Scan (Address : Type) where
  addresses : Finset Address
  /-- The transactions still to be scanned, once they are listed. -/
  remaining : Option (List (Txid × WalletTx Address)) := none
  result : ReceiveRequestPaymentScan Address := {}
  /-- Transactions that changed without a notification after they were read. -/
  stale : Finset Txid := ∅

structure Poll where
  revision : Nat
  remaining : List Txid
  inactive : List Txid := []
  confirmed : List Txid := []
  /-- Transactions that were read and did not change without a notification since. -/
  fresh : Finset Txid := ∅

structure System (Address : Type) where
  m_receive_requests : ReceiveRequestHistoryModel Address
  m_receive_request_addresses : Finset Address
  payments : ReceivePayments Address := {}
  m_receive_payment_revision : Nat := 0
  /-- Pending exactly when there is a scan. -/
  scan : Option (Scan Address) := none
  m_receive_reconciliation_requested : Bool := false
  m_receive_reconciliation_updates : Std.ExtTreeMap Txid Bool := ∅
  /-- Pending exactly when there is a poll. -/
  poll : Option Poll := none
  /-- The queued notifications, each with whether it is a deletion. -/
  notifications : List (Txid × Bool) := []
  wallet : Wallet Address
  /-- The requests in the wallet. -/
  stored : ReceiveRequestHistoryModel Address
  /-- The transactions whose last change without a notification nothing has inspected yet. -/
  uninspected : Finset Txid := ∅

section Handlers

variable {Address : Type} [DecidableEq Address] (store : Int → Bool) (s : System Address)

def inspect (txids : Finset Txid) : System Address := { s with uninspected := s.uninspected \ txids }

/-! ## Payments -/

def markEntry (s : System Address) (entry : QmlRecentRequestEntry Address) : System Address :=
  if entry.payment_received then s
  else
    let entry := { entry with payment_received := true }
    { s with
      stored := if store entry.id then s.stored.prependOrReplace entry else s.stored
      m_receive_requests := s.m_receive_requests.prependOrReplace entry }

def markReceiveRequestPayment (s : System Address) (address : Address) : System Address :=
  (s.m_receive_requests.entriesForAddress address).foldl (markEntry store) s

def removeReceiveRequestPayment (s : System Address) (txid : Txid) : System Address :=
  { s with
    payments := s.payments.remove txid
    m_receive_payment_revision := s.m_receive_payment_revision + 1 }

def recordReceiveRequestPayment (txid : Txid) (details : Option (WalletTx Address) × WalletTxStatus) :
    System Address :=
  match details with
  | (none, _) => s
  | (some tx, status) =>
    let s := removeReceiveRequestPayment s txid
    let s := (ownAddresses tx).foldl (markReceiveRequestPayment store) s
    let scanned := scanReceiveRequestTransaction tx status s.m_receive_request_addresses
    { s with
      payments := s.payments.add txid scanned
      m_receive_payment_revision := if scanned.received.isEmpty then s.m_receive_payment_revision
        else s.m_receive_payment_revision + 1 }

/-- Whether a transaction does not count now. -/
def inactiveNow (wallet : Wallet Address) (txid : Txid) : Bool :=
  let details := getWalletTxDetails wallet txid
  isInactive details.2 (details.1.any (·.replaced))

/-- The transactions that pay an address of the changed one. -/
def relatedTxids (payments : Tally Txid Address) (changed_txid : Txid) : Finset Txid :=
  match payments.entries changed_txid with
  | none => ∅
  | some changed => (changed.foldl (fun related w => related ∪ (payments.index w.1).getD ∅) ∅).erase
      changed_txid

def recheckOne (s : System Address) (txid : Txid) : System Address :=
  if inactiveNow s.wallet txid then inspect (removeReceiveRequestPayment s txid) {txid} else s

def recheckReceiveRequestPayments (changed_txid : Txid) : System Address :=
  ((relatedTxids s.payments.payments changed_txid).sort (· ≤ ·)).foldl recheckOne s

/-- What a notification and a replayed update do. -/
def updateTransaction (s : System Address) (update : Txid × Bool) : System Address :=
  let s := removeReceiveRequestPayment s update.1
  let s := if update.2 then s
    else recheckReceiveRequestPayments (recordReceiveRequestPayment store s update.1
      (getWalletTxDetails s.wallet update.1)) update.1
  inspect s {update.1}

/-! ## Scans -/

def refreshReceiveRequestPayments : System Address :=
  if s.scan.isSome then { s with m_receive_reconciliation_requested := true }
  else if s.m_receive_requests.m_entries.isEmpty then
    { s with
      payments := {}
      m_receive_payment_revision := s.m_receive_payment_revision + 1
      uninspected := ∅ }
  else { s with scan := some { addresses := s.m_receive_request_addresses } }

def reloadReceiveRequests : System Address :=
  refreshReceiveRequestPayments { s with
    m_receive_requests := s.stored
    m_receive_request_addresses := s.stored.requestAddresses
    payments := {}
    m_receive_payment_revision := s.m_receive_payment_revision + 1 }

/-- The next transaction is scanned, with the status it has now. -/
def Scan.read (scan : Scan Address) (wallet : Wallet Address) : Scan Address :=
  match scan.remaining with
  | some ((txid, tx) :: rest) =>
    { scan with
      remaining := some rest
      result := scan.result.add txid
        (scanReceiveRequestTransaction tx (getWalletTxDetails wallet txid).2 scan.addresses) }
  | _ => scan

def applyScan (scan : Scan Address) : System Address :=
  let s := { s with scan := none }
  if s.m_receive_reconciliation_requested then
    refreshReceiveRequestPayments { s with
      m_receive_reconciliation_requested := false
      m_receive_reconciliation_updates := ∅ }
  else
    let s := { s with
      payments := scan.result.payments
      m_receive_payment_revision := s.m_receive_payment_revision + 1
      uninspected := scan.stale }
    let s := scan.result.observed_addresses.foldl (markReceiveRequestPayment store) s
    let s := s.m_receive_reconciliation_updates.toList.foldl (updateTransaction store) s
    { s with m_receive_reconciliation_updates := ∅ }

def deliverNotification : System Address :=
  match s.notifications with
  | [] => s
  | (txid, deleted) :: rest =>
    let s := if s.scan.isSome then { s with
        m_receive_reconciliation_updates := s.m_receive_reconciliation_updates.insert txid deleted }
      else s
    let s := updateTransaction store s (txid, deleted)
    { s with notifications := rest }

/-! ## Polls -/

/-- Start a poll, unless something is pending. -/
def pollUnconfirmedReceiveRequestPayments : System Address :=
  if s.poll.isSome || s.scan.isSome || !s.notifications.isEmpty then s
  else
    let poll : Poll :=
      { revision := s.m_receive_payment_revision
        remaining := s.payments.m_receive_request_unconfirmed_txids.sort (· ≤ ·) }
    { s with poll := some poll }

def Poll.read (poll : Poll) (wallet : Wallet Address) : Poll :=
  match poll.remaining with
  | [] => poll
  | txid :: rest =>
    let poll := { poll with remaining := rest, fresh := insert txid poll.fresh }
    let details := getWalletTxDetails wallet txid
    if details.1.isNone || inactiveNow wallet txid then
      { poll with inactive := poll.inactive ++ [txid] }
    else if 0 < details.2.depth_in_main_chain then
      { poll with confirmed := poll.confirmed ++ [txid] }
    else poll

def confirmReceiveRequestPayment (s : System Address) (txid : Txid) : System Address :=
  { s with payments := s.payments.confirm txid }

def applyPoll (poll : Poll) : System Address :=
  let s := { s with poll := none }
  if poll.revision ≠ s.m_receive_payment_revision || s.scan.isSome || !s.notifications.isEmpty then s
  else
    let s := poll.inactive.foldl removeReceiveRequestPayment s
    let s := poll.confirmed.foldl confirmReceiveRequestPayment s
    inspect s poll.fresh

/-! ## Requests -/

/-- What a save reads of a `PaymentRequest`. A new one has no id. -/
structure PaymentRequest (Address : Type) where
  id : Option Int
  address : Address
  label : String
  message : String
  noteSelf : String
  amount : Int

def MAX_MONEY : Int := 2100000000000000

def moneyRange (amount : Int) : Bool := 0 ≤ amount && amount ≤ MAX_MONEY

def nextPaymentRequestId : Int :=
  let max_id := s.m_receive_requests.maxId
  if max_id ≤ 0 || 4294967294 ≤ max_id then 1 else max_id + 1

/-- Whether an update may replace the entry. -/
def mayReplace (existing : QmlRecentRequestEntry Address) (request : PaymentRequest Address) : Bool :=
  request.address = existing.address &&
    !(existing.payment_received && (request.amount ≠ existing.amount ||
      request.label ≠ existing.label || request.message ≠ existing.message))

def requestEntry (request : PaymentRequest Address) (id : Int) (payment_received : Bool) :
    QmlRecentRequestEntry Address where
  id := id
  address := request.address
  label := request.label
  message := request.message
  noteSelf := request.noteSelf
  amount := request.amount
  payment_received := payment_received

def writeEntry (entry : QmlRecentRequestEntry Address) : System Address :=
  { s with
    stored := s.stored.prependOrReplace entry
    m_receive_requests := s.m_receive_requests.prependOrReplace entry }

def saveNew (request : PaymentRequest Address) : System Address × Bool :=
  let id := nextPaymentRequestId s
  if !moneyRange request.amount || !store id then (s, false)
  else
    ({ writeEntry s (requestEntry request id false) with
        m_receive_request_addresses := insert request.address s.m_receive_request_addresses
        m_receive_reconciliation_requested :=
          s.m_receive_reconciliation_requested || s.scan.isSome }, true)

def saveUpdate (request : PaymentRequest Address) (id : Int) : System Address × Bool :=
  if s.scan.isSome || !s.notifications.isEmpty then (s, false)
  else match s.m_receive_requests.entryById id with
    | none => (s, false)
    | some existing =>
      if id ≤ 0 || !moneyRange request.amount || !mayReplace existing request || !store id then (s, false)
      else
        ({ writeEntry s (requestEntry request id existing.payment_received) with
            m_receive_request_addresses := insert request.address s.m_receive_request_addresses }, true)

def savePaymentRequest (request : PaymentRequest Address) : System Address × Bool :=
  match request.id with
  | none => saveNew store s request
  | some id => saveUpdate store s request id

/-- An address that does not decode is not the one of the entry. -/
def updatePaymentRequest (isValid : Address → Bool) (id amount : Int) (label message note : String) :
    System Address × Bool :=
  match s.m_receive_requests.entryById id with
  | none => (s, false)
  | some entry =>
    if !moneyRange amount || entry.id ≤ 0 || 4294967295 < entry.id || !isValid entry.address then
      (s, false)
    else savePaymentRequest store s ⟨some id, entry.address, label, message, note, amount⟩

def removeReceiveRequest (isValid : Address → Bool) (id : Int) : System Address × Bool :=
  match s.m_receive_requests.entryById id with
  | none => (s, false)
  | some entry =>
    if !isValid entry.address || !store id then (s, false)
    else
      let requests := s.m_receive_requests.removeByRequestId id
      (refreshReceiveRequestPayments { s with
        stored := s.stored.removeByRequestId id
        m_receive_requests := requests
        m_receive_request_addresses := requests.requestAddresses }, true)

def syncNote (label : String) (s : System Address) (entry : QmlRecentRequestEntry Address) :
    System Address :=
  if entry.noteSelf = label || !store entry.id then s
  else writeEntry s { entry with noteSelf := label }

/-- `setAddressLabel`, where `written` says whether the address book took the label. -/
def setAddressLabel (written : Bool) (address : Address) (label : String) : System Address × Bool :=
  if !written then (s, false)
  else
    let s := refreshReceiveRequestPayments s
    ((s.m_receive_requests.entriesForAddress address).foldl (syncNote store label) s, true)

end Handlers

/-! ## Steps -/

section Steps

variable {Address : Type} [DecidableEq Address]

/-- The list holds each transaction of the wallet once. -/
def Lists (wallet : Wallet Address) (l : List (Txid × WalletTx Address)) : Prop :=
  (l.map (·.1)).Nodup ∧ ∀ txid tx, (txid, tx) ∈ l ↔ ∃ status, wallet txid = some (tx, status)

/-- A change that the scan has still to read does not make it stale. -/
def Scan.change (scan : Scan Address) (txid : Txid) (replaced_changed : Bool) : Scan Address :=
  match scan.remaining with
  | none => scan
  | some l =>
    if txid ∈ l.map (·.1) && !replaced_changed then scan
    else { scan with stale := insert txid scan.stale }

/-- A change of a transaction without a notification. -/
def changeUnnotified (s : System Address) (txid : Txid) (tx tx' : WalletTx Address)
    (status' : WalletTxStatus) : System Address :=
  { s with
    wallet := Function.update s.wallet txid (some (tx', status'))
    uninspected := insert txid s.uninspected
    scan := s.scan.map (·.change txid (tx.replaced != tx'.replaced))
    poll := s.poll.map fun poll => { poll with fresh := poll.fresh.erase txid } }

/-- A change with a notification, which is queued. -/
def changeNotified (s : System Address) (txid : Txid) (entry : Option (WalletTx Address × WalletTxStatus)) :
    System Address :=
  { s with
    wallet := Function.update s.wallet txid entry
    notifications := s.notifications ++ [(txid, entry.isNone)] }

/-- One step, where `Saves` tells which requests are saved. -/
inductive Step (isValid : Address → Bool) (Saves : (Int → Bool) → System Address → PaymentRequest Address → Prop) :
    System Address → System Address → Prop
  | save {s} (store request) : Saves store s request →
      Step isValid Saves s (savePaymentRequest store s request).1
  | update {s} (store id amount label message note) :
      Step isValid Saves s (updatePaymentRequest store s isValid id amount label message note).1
  | remove {s} (store id) : Step isValid Saves s (removeReceiveRequest store s isValid id).1
  | label {s} (store written address label) :
      Step isValid Saves s (setAddressLabel store s written address label).1
  | reload {s} : Step isValid Saves s (reloadReceiveRequests s)
  | notified {s} (txid entry) : Step isValid Saves s (changeNotified s txid entry)
  | unnotified {s} (txid tx status tx' status') :
      txid ∈ s.payments.m_receive_request_unconfirmed_txids → s.wallet txid = some (tx, status) →
      tx'.vout = tx.vout → Step isValid Saves s (changeUnnotified s txid tx tx' status')
  | deliver {s} (store) : Step isValid Saves s (deliverNotification store s)
  | list {s} (scan l) : s.scan = some scan → scan.remaining = none → Lists s.wallet l →
      Step isValid Saves s { s with scan := some { scan with remaining := some l } }
  | read {s} (scan) : s.scan = some scan →
      Step isValid Saves s { s with scan := some (scan.read s.wallet) }
  | applyScan {s} (store scan) : s.scan = some scan → scan.remaining = some [] →
      Step isValid Saves s (applyScan store s scan)
  | poll {s} : Step isValid Saves s (pollUnconfirmedReceiveRequestPayments s)
  | readPoll {s} (poll) : s.poll = some poll →
      Step isValid Saves s { s with poll := some (poll.read s.wallet) }
  | applyPoll {s} (poll) : s.poll = some poll → poll.remaining = [] →
      Step isValid Saves s (applyPoll s poll)

/-- A model that was just built on a wallet. -/
def start (wallet : Wallet Address) (stored : ReceiveRequestHistoryModel Address) : System Address :=
  reloadReceiveRequests
    { m_receive_requests := ⟨[], List.nodup_nil⟩, m_receive_request_addresses := ∅, wallet, stored }

/-- Nothing is pending, and each change without a notification was inspected. -/
structure Quiet (s : System Address) : Prop where
  scan : s.scan = none
  poll : s.poll = none
  notifications : s.notifications = []
  inspected : s.uninspected = ∅

/-! ## What a reload computes -/

/-- The scan of a reload, with the transactions listed in some order. -/
def reloadedScan (wallet : Wallet Address) (addresses : Finset Address)
    (l : List (Txid × WalletTx Address)) : ReceiveRequestPaymentScan Address :=
  l.foldl (fun scan w => scan.add w.1
    (scanReceiveRequestTransaction w.2 (getWalletTxDetails wallet w.1).2 addresses)) {}

/-- The payments are those of a reload, and a request that a reload locks is locked. -/
structure Reconciled (s : System Address) : Prop where
  payments : ∀ l, Lists s.wallet l →
    s.payments = (reloadedScan s.wallet s.stored.requestAddresses l).payments
  locked : ∀ l, Lists s.wallet l → ∀ stored ∈ s.stored.m_entries,
    ∃ entry ∈ s.m_receive_requests.m_entries, entry.id = stored.id ∧ entry.address = stored.address ∧
      (stored.payment_received = true ∨
        stored.address ∈ (reloadedScan s.wallet s.stored.requestAddresses l).observed_addresses →
        entry.payment_received = true)
  shown : ∀ entry ∈ s.m_receive_requests.m_entries, ∃ stored ∈ s.stored.m_entries,
    stored.id = entry.id ∧ stored.address = entry.address

end Steps

end GuiQml.Receive
