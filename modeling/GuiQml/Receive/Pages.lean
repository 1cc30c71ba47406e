import GuiQml.Receive.Reconciliation

/-!
# Requests held by pages

The editor and the detail view of `WalletQmlModel` each hold a `PaymentRequest`. The operations on requests
are here with what they write to the wallet and what they do to the two; what they do to the rest of the
model is as in the reconciliation. An editor's fields are edited only while it holds no saved request, as in
`PaymentRequestCard.qml`.
-/

namespace GuiQml.Receive

/-- A `PaymentRequest` with the id of the request that it holds. -/
structure HeldRequest (Address : Type) where
  m_id : Option Int := none
  m_destination : Option Address := none
  m_label : String := ""
  m_message : String := ""
  m_noteSelf : String := ""
  m_amount : Int := 0
  m_payment_received : Bool := false
  m_is_editing : Bool := true

structure Pages (Address : Type) where
  system : System Address
  m_current_payment_request : HeldRequest Address := {}
  m_detail_payment_request : HeldRequest Address := {}
  /-- The entries whose blobs were written to the wallet, oldest first. -/
  written : List (QmlRecentRequestEntry Address) := []

variable {Address : Type} [DecidableEq Address]

namespace HeldRequest

variable (held : HeldRequest Address)

/-- What a payment of the request does to a page that holds it. -/
def lock (entry : QmlRecentRequestEntry Address) : HeldRequest Address :=
  if held.m_id = some entry.id then
    { held with
      m_payment_received := true, m_amount := entry.amount, m_label := entry.label
      m_message := entry.message }
  else held

/-- `loadPaymentRequest` and `loadPaymentRequestDetail`, with whether they succeed. -/
def load (isValid : Address → Bool) (requests : ReceiveRequestHistoryModel Address) (id : Int) :
    HeldRequest Address × Bool :=
  match requests.entryById id with
  | none => (held, false)
  | some entry =>
    if entry.id < 0 || 4294967295 < entry.id || !isValid entry.address then (held, false)
    else
      ({ m_id := some entry.id
         m_destination := some entry.address
         m_label := entry.label
         m_message := entry.message
         m_noteSelf := entry.noteSelf
         m_amount := entry.amount
         m_payment_received := entry.payment_received
         m_is_editing := false }, true)

def request (address : Address) : PaymentRequest Address where
  id := held.m_id
  address := address
  label := held.m_label
  message := held.m_message
  noteSelf := held.m_noteSelf
  amount := held.m_amount

end HeldRequest

namespace Pages

section Operations

variable (store : Int → Bool) (isValid : Address → Bool) (p : Pages Address)

/-! ## Payments -/

def markEntry (p : Pages Address) (entry : QmlRecentRequestEntry Address) : Pages Address :=
  if entry.payment_received then p
  else
    let locked := { entry with payment_received := true }
    { system := Receive.markEntry store p.system entry
      m_current_payment_request := p.m_current_payment_request.lock locked
      m_detail_payment_request := p.m_detail_payment_request.lock locked
      written := if store entry.id then p.written ++ [locked] else p.written }

def markReceiveRequestPayment (p : Pages Address) (address : Address) : Pages Address :=
  (p.system.m_receive_requests.entriesForAddress address).foldl (markEntry store) p

/-- What is recorded of a transaction after its payments are marked. -/
def addPayments (s : System Address) (txid : Txid) (tx : WalletTx Address) (status : WalletTxStatus) :
    System Address :=
  let scanned := scanReceiveRequestTransaction tx status s.m_receive_request_addresses
  { s with
    payments := s.payments.add txid scanned
    m_receive_payment_revision := if scanned.received.isEmpty then s.m_receive_payment_revision
      else s.m_receive_payment_revision + 1 }

def recordReceiveRequestPayment (txid : Txid) (details : Option (WalletTx Address) × WalletTxStatus) :
    Pages Address :=
  match details with
  | (none, _) => p
  | (some tx, status) =>
    let p := { p with system := removeReceiveRequestPayment p.system txid }
    let p := (ownAddresses tx).foldl (markReceiveRequestPayment store) p
    { p with system := addPayments p.system txid tx status }

def updateTransaction (p : Pages Address) (update : Txid × Bool) : Pages Address :=
  let p := { p with system := removeReceiveRequestPayment p.system update.1 }
  let p :=
    if update.2 then p
    else
      let p := recordReceiveRequestPayment store p update.1 (getWalletTxDetails p.system.wallet update.1)
      { p with system := recheckReceiveRequestPayments p.system update.1 }
  { p with system := inspect p.system {update.1} }

def applyScan (scan : Scan Address) : Pages Address :=
  let p := { p with system := { p.system with scan := none } }
  if p.system.m_receive_reconciliation_requested then
    { p with system := refreshReceiveRequestPayments { p.system with
      m_receive_reconciliation_requested := false
      m_receive_reconciliation_updates := ∅ } }
  else
    let p := { p with system := { p.system with
      payments := scan.result.payments
      m_receive_payment_revision := p.system.m_receive_payment_revision + 1
      uninspected := scan.stale } }
    let p := scan.result.observed_addresses.foldl (markReceiveRequestPayment store) p
    let p := p.system.m_receive_reconciliation_updates.toList.foldl (updateTransaction store) p
    { p with system := { p.system with m_receive_reconciliation_updates := ∅ } }

def deliverNotification : Pages Address :=
  match p.system.notifications with
  | [] => p
  | (txid, deleted) :: rest =>
    let p := if p.system.scan.isSome then { p with system := { p.system with
        m_receive_reconciliation_updates :=
          p.system.m_receive_reconciliation_updates.insert txid deleted } }
      else p
    let p := updateTransaction store p (txid, deleted)
    { p with system := { p.system with notifications := rest } }

/-! ## Saving -/

/-- The entry that a save hands to the wallet. -/
def savedEntry (s : System Address) (request : PaymentRequest Address) :
    Option (QmlRecentRequestEntry Address) :=
  match request.id with
  | none => some (requestEntry request (nextPaymentRequestId s) false)
  | some id => (s.m_receive_requests.entryById id).map fun existing =>
      requestEntry request id existing.payment_received

/-- A save of a request, with the id that it has then. -/
def savePaymentRequest (request : PaymentRequest Address) : Pages Address × Option Int :=
  let saved := Receive.savePaymentRequest store p.system request
  match saved.2, savedEntry p.system request with
  | true, some entry =>
    let p := { p with system := saved.1, written := p.written ++ [entry] }
    let detail := p.m_detail_payment_request
    let p :=
      if detail.m_id = some entry.id then
        { p with m_detail_payment_request :=
            (detail.load isValid p.system.m_receive_requests entry.id).1 }
      else p
    (p, some entry.id)
  | _, _ => ({ p with system := saved.1 }, none)

/-- A save of the editor's own request. -/
def saveCurrent (address : Address) : Pages Address × Bool :=
  let current := { p.m_current_payment_request with m_destination := some address }
  let p := { p with m_current_payment_request := current }
  match savePaymentRequest store isValid p (current.request address) with
  | (p, some id) =>
    ({ p with m_current_payment_request :=
        { p.m_current_payment_request with m_id := some id, m_is_editing := false } }, true)
  | (p, none) => (p, false)

/-- `new_address` is what the wallet gives to an editor without an address, if it does. -/
def commitPaymentRequest (new_address : Option Address) : Pages Address × Bool :=
  if !moneyRange p.m_current_payment_request.m_amount then (p, false)
  else match p.m_current_payment_request.m_destination.or new_address with
    | none => (p, false)
    | some address => saveCurrent store isValid p address

/-- The part of `commitReceivingPaymentRequest` that follows the recording of payments, where the receiving
address was not paid. -/
def commitReceivingPaymentRequest (receiving_address : Address) : Pages Address × Bool :=
  if p.m_current_payment_request.m_id.isSome then (p, false)
  else saveCurrent store isValid p receiving_address

def updatePaymentRequest (id amount : Int) (label message note : String) : Pages Address × Bool :=
  match p.system.m_receive_requests.entryById id with
  | none => (p, false)
  | some entry =>
    if !moneyRange amount || entry.id ≤ 0 || 4294967295 < entry.id || !isValid entry.address then
      (p, false)
    else match savePaymentRequest store isValid p ⟨some id, entry.address, label, message, note, amount⟩ with
      | (p, none) => (p, false)
      | (p, some _) =>
        let current := p.m_current_payment_request
        if current.m_id = some id then
          ({ p with m_current_payment_request :=
              (current.load isValid p.system.m_receive_requests id).1 }, true)
        else (p, true)

def removeReceiveRequest (id : Int) : Pages Address × Bool :=
  let removed := Receive.removeReceiveRequest store p.system isValid id
  ({ p with system := removed.1 }, removed.2)

def syncNote (label : String) (p : Pages Address) (entry : QmlRecentRequestEntry Address) :
    Pages Address :=
  if entry.noteSelf = label || !store entry.id then p
  else
    let detail := p.m_detail_payment_request
    let current := p.m_current_payment_request
    { system := Receive.syncNote store label p.system entry
      m_detail_payment_request :=
        if detail.m_id = some entry.id then { detail with m_noteSelf := label } else detail
      m_current_payment_request :=
        if current.m_id = some entry.id && !current.m_is_editing then { current with m_noteSelf := label }
        else current
      written := p.written ++ [{ entry with noteSelf := label }] }

def setAddressLabel (labelled : Bool) (address : Address) (label : String) : Pages Address × Bool :=
  if !labelled then (p, false)
  else
    let p := { p with system := refreshReceiveRequestPayments p.system }
    ((p.system.m_receive_requests.entriesForAddress address).foldl (syncNote store label) p, true)

/-! ## Pages -/

def loadPaymentRequest (id : Int) : Pages Address × Bool :=
  let loaded := p.m_current_payment_request.load isValid p.system.m_receive_requests id
  ({ p with m_current_payment_request := loaded.1 }, loaded.2)

def loadPaymentRequestDetail (id : Int) : Pages Address × Bool :=
  let loaded := p.m_detail_payment_request.load isValid p.system.m_receive_requests id
  ({ p with m_detail_payment_request := loaded.1 }, loaded.2)

/-- A request that is saved for the address is loaded for editing. -/
def setCurrentPaymentRequestAddress (address : Address) (address_label : String) : Pages Address × Bool :=
  if !isValid address then (p, false)
  else match p.system.m_receive_requests.entriesForAddress address with
    | entry :: _ =>
      let loaded := loadPaymentRequest isValid p entry.id
      if !loaded.2 then loaded
      else
        ({ loaded.1 with m_current_payment_request :=
            { loaded.1.m_current_payment_request with m_is_editing := true } }, true)
    | [] =>
      ({ p with m_current_payment_request :=
          { m_destination := some address, m_noteSelf := address_label } }, true)

def usePaymentRequestAsTemplate (id : Int) : Pages Address :=
  match p.system.m_receive_requests.entryById id with
  | none => p
  | some entry =>
    { p with m_current_payment_request :=
        { m_label := entry.label
          m_message := entry.message
          m_noteSelf := entry.noteSelf
          m_amount := entry.amount } }

/-- A page edits its draft. -/
def editDraft (amount : Int) (label message note : String) : Pages Address :=
  let current := p.m_current_payment_request
  if current.m_id.isSome then p
  else
    { p with m_current_payment_request :=
        { current with m_amount := amount, m_label := label, m_message := message, m_noteSelf := note } }

/-! ## The rest of the model -/

omit [DecidableEq Address] in
theorem markEntry_system (entry : QmlRecentRequestEntry Address) :
    (markEntry store p entry).system = Receive.markEntry store p.system entry := by
  unfold markEntry
  split
  next hpaid => exact (if_pos hpaid).symm
  next => rfl

theorem markReceiveRequestPayment_system (address : Address) :
    (markReceiveRequestPayment store p address).system =
      Receive.markReceiveRequestPayment store p.system address := by
  unfold markReceiveRequestPayment Receive.markReceiveRequestPayment
  exact (List.foldl_hom system fun p entry => (markEntry_system store p entry).symm).symm

theorem addresses_system (l : List Address) :
    (l.foldl (markReceiveRequestPayment store) p).system =
      l.foldl (Receive.markReceiveRequestPayment store) p.system :=
  (List.foldl_hom system fun p address => (markReceiveRequestPayment_system store p address).symm).symm

theorem recordReceiveRequestPayment_system (txid : Txid)
    (details : Option (WalletTx Address) × WalletTxStatus) :
    (recordReceiveRequestPayment store p txid details).system =
      Receive.recordReceiveRequestPayment store p.system txid details := by
  unfold recordReceiveRequestPayment Receive.recordReceiveRequestPayment
  split
  · rfl
  · dsimp only
    rw [addresses_system]
    rfl

theorem updateTransaction_system (update : Txid × Bool) :
    (updateTransaction store p update).system = Receive.updateTransaction store p.system update := by
  unfold updateTransaction Receive.updateTransaction
  dsimp only
  split
  · rfl
  · rw [recordReceiveRequestPayment_system]

theorem applyScan_system (scan : Scan Address) :
    (applyScan store p scan).system = Receive.applyScan store p.system scan := by
  unfold applyScan Receive.applyScan
  dsimp only
  split
  · rfl
  · rw [← List.foldl_hom system fun p update => (updateTransaction_system store p update).symm,
      ← List.foldl_hom system fun p address => (markReceiveRequestPayment_system store p address).symm]

theorem deliverNotification_system :
    (deliverNotification store p).system = Receive.deliverNotification store p.system := by
  unfold deliverNotification Receive.deliverNotification
  cases hbox : p.system.notifications with
  | nil => rfl
  | cons notification rest =>
    dsimp only
    rw [updateTransaction_system, apply_ite system]
    simp only [hbox]

end Operations

/-! ## Steps -/

/-- A new request gets an id that is not in use. -/
def Fresh (s : System Address) (request_id : Option Int) : Prop :=
  request_id = none → ∀ entry ∈ s.m_receive_requests.m_entries, entry.id ≠ nextPaymentRequestId s

/-- One step, where `mayRemove` tells which requests are removed. -/
inductive Step (isValid : Address → Bool) (mayRemove : Int → Prop) :
    Pages Address → Pages Address → Prop
  | save {p} (store request) : Fresh p.system request.id →
      Step isValid mayRemove p (savePaymentRequest store isValid p request).1
  | commit {p} (store new_address) : Fresh p.system p.m_current_payment_request.m_id →
      Step isValid mayRemove p (commitPaymentRequest store isValid p new_address).1
  | commitReceiving {p} (store address) : Fresh p.system p.m_current_payment_request.m_id →
      Step isValid mayRemove p (commitReceivingPaymentRequest store isValid p address).1
  | update {p} (store id amount label message note) :
      Step isValid mayRemove p (updatePaymentRequest store isValid p id amount label message note).1
  | remove {p} (store id) : mayRemove id → Step isValid mayRemove p (removeReceiveRequest store isValid p id).1
  | label {p} (store labelled address label) :
      Step isValid mayRemove p (setAddressLabel store p labelled address label).1
  | record {p} (store txid details) : Step isValid mayRemove p (recordReceiveRequestPayment store p txid details)
  | deliver {p} (store) : Step isValid mayRemove p (deliverNotification store p)
  | applyScan {p} (store scan) : Step isValid mayRemove p (applyScan store p scan)
  | load {p} (id) : Step isValid mayRemove p (loadPaymentRequest isValid p id).1
  | loadDetail {p} (id) : Step isValid mayRemove p (loadPaymentRequestDetail isValid p id).1
  | setAddress {p} (address address_label) :
      Step isValid mayRemove p (setCurrentPaymentRequestAddress isValid p address address_label).1
  | template {p} (id) : Step isValid mayRemove p (usePaymentRequestAsTemplate p id)
  | edit {p} (amount label message note) : Step isValid mayRemove p (editDraft p amount label message note)
  | setIsEditing {p} (editing) : Step isValid mayRemove p
      { p with m_current_payment_request := { p.m_current_payment_request with m_is_editing := editing } }
  | clear {p} : Step isValid mayRemove p { p with m_current_payment_request := {} }
  | clearDetail {p} : Step isValid mayRemove p { p with m_detail_payment_request := {} }
  /-- A step of the reconciliation that leaves the requests as they are. -/
  | background {p : Pages Address} {s' : System Address} {Saves} :
      Receive.Step isValid Saves p.system s' →
      s'.m_receive_requests = p.system.m_receive_requests → Step isValid mayRemove p { p with system := s' }

def start (wallet : Wallet Address) (stored : ReceiveRequestHistoryModel Address) : Pages Address :=
  { system := Receive.start wallet stored }

end Pages

end GuiQml.Receive
