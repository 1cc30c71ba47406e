import GuiQml.Receive.Pages
import GuiQml.Lib.Reach

/-!
# The address of the Receive page

`m_receiving_address` of `WalletQmlModel` with the setting that keeps it over a restart. A request that is made on
the page is saved at this address, and the address is then given up. The request that the page edits is handed
over by each event, and the passphrase of a locked wallet is left out.
-/

namespace GuiQml.Receive

inductive OutputType
  | bech32m
  | bech32
  | p2sh_segwit
  | legacy
  deriving DecidableEq, Repr

/-- What an address is. -/
structure AddressApi (Address : Type) where
  isValid : Address → Bool
  outputTypeIdFromDestination : Address → Option OutputType

structure Receiving (Address : Type) where
  system : System Address
  m_receiving_address : Option Address := none
  /-- Whether the receiving address was paid. -/
  m_payment_received : Bool := false
  m_needs_unlock : Bool := false
  /-- The address in the settings. -/
  address_setting : Option Address := none
  /-- The type in the settings of the node. -/
  saved_type : Option OutputType := none

/-- What the wallet answers while a page asks for an address. -/
structure ReceiveAnswers (Address : Type) where
  canGetAddresses : Bool := true
  taprootEnabled : Bool := true
  /-- Whether the address is in the address book as one to receive at. -/
  isReceive : Address → Bool
  getWalletTxs : List (Txid × WalletTx Address)
  getNewDestination : OutputType → Option Address
  isLocked : Bool := false
  /-- Whether the wallet stores a request. -/
  store : Int → Bool := fun _ => true

def availableReceiveAddressTypes (canGetAddresses taprootEnabled : Bool) : List OutputType :=
  if !canGetAddresses then []
  else if taprootEnabled then [.bech32m, .bech32, .p2sh_segwit, .legacy]
  else [.bech32, .p2sh_segwit, .legacy]

variable {Address : Type} [DecidableEq Address]

namespace Receiving

variable (api : AddressApi Address) (answers : ReceiveAnswers Address) (s : Receiving Address)

def availableTypes : List OutputType :=
  availableReceiveAddressTypes answers.canGetAddresses answers.taprootEnabled

def defaultReceiveAddressType : Option OutputType :=
  ((availableTypes answers).find? fun type => s.saved_type = some type).or (availableTypes answers).head?

/-- `clear` of the receiving address. -/
def clear : Receiving Address :=
  { s with m_receiving_address := none, m_payment_received := false, m_needs_unlock := false }

/-! ## Payments -/

/-- What a recorded transaction says of the receiving address. -/
def observe (tx : WalletTx Address) : Receiving Address :=
  if s.m_receiving_address.any (ownAddresses tx).contains then
    { s with m_payment_received := true }
  else s

def recordReceiveRequestPayment (store : Int → Bool) (s : Receiving Address) (w : Txid × WalletTx Address) :
    Receiving Address :=
  { s.observe w.2 with
    system := Receive.recordReceiveRequestPayment store s.system w.1
      (some w.2, (getWalletTxDetails s.system.wallet w.1).2) }

def recordWalletTxs : Receiving Address :=
  answers.getWalletTxs.foldl (recordReceiveRequestPayment answers.store) s

/-- The transactions that a notification and the updates of a scan record. -/
def updated (wallet : Wallet Address) (updates : List (Txid × Bool)) : List (WalletTx Address) :=
  updates.filterMap fun update => if update.2 then none else (getWalletTxDetails wallet update.1).1

def deliverNotification (store : Int → Bool) : Receiving Address :=
  { (updated s.system.wallet (s.system.notifications.take 1)).foldl observe s with
    system := Receive.deliverNotification store s.system }

def applyScan (store : Int → Bool) (scan : Scan Address) : Receiving Address :=
  let updates := if s.system.m_receive_reconciliation_requested then []
    else s.system.m_receive_reconciliation_updates.toList
  { (updated s.system.wallet updates).foldl observe s with system := Receive.applyScan store s.system scan }

/-! ## The page -/

/-- An address of the settings is restored where the wallet has it to receive at. -/
def restore : Receiving Address :=
  match s.address_setting with
  | some address =>
    if api.isValid address && answers.isReceive address then { s with m_receiving_address := some address } else s
  | none => s

/-- A new address of the type. -/
def allocate (type : OutputType) : Receiving Address × Bool :=
  match answers.getNewDestination type with
  | some destination =>
    if api.isValid destination then
      ({ s.clear with
          m_receiving_address := some destination
          address_setting := some destination
          saved_type := some type }, true)
    else ({ s with m_needs_unlock := answers.isLocked }, false)
  | none => ({ s with m_needs_unlock := answers.isLocked }, false)

/-- Whether the page keeps the address that it has. -/
def keeps (next : Bool) (address_type : Option OutputType) (type : OutputType) : Bool :=
  s.m_receiving_address.any fun address => !next && !s.m_payment_received &&
    (address_type.isNone || api.outputTypeIdFromDestination address = some type)

def ensureReceivingAddress (next : Bool) (address_type : Option OutputType) : Receiving Address × Bool :=
  match address_type.or (s.defaultReceiveAddressType answers) with
  | none => (s, false)
  | some type =>
    if !(availableTypes answers).contains type then (s, false)
    else
      let s := if s.m_receiving_address.isNone && !next then s.restore api answers else s
      let s := if s.m_receiving_address.isSome then s.recordWalletTxs answers else s
      if s.keeps api next address_type type then (s, true) else s.allocate api answers type

/-- The address is given up. -/
def forget : Receiving Address := { s.clear with address_setting := none }

def commitReceivingPaymentRequest (current : HeldRequest Address) : Receiving Address × Bool :=
  if current.m_id.isSome then (s, false)
  else
    let s := s.recordWalletTxs answers
    match s.m_receiving_address with
    | none => (s, false)
    | some address =>
      if s.m_payment_received then (s, false)
      else
        let saved := savePaymentRequest answers.store s.system (current.request address)
        if !saved.2 then ({ s with system := saved.1 }, false)
        else ({ s.forget with system := saved.1 }, true)

/-- The part for the receiving address of `setCurrentPaymentRequestAddress`. A request that is saved for the address
is loaded instead. -/
def setCurrentPaymentRequestAddress (address : Address) : Receiving Address :=
  if !api.isValid address then s
  else if !(s.system.m_receive_requests.entriesForAddress address).isEmpty then s
  else { s.clear with m_receiving_address := some address, address_setting := some address }

def usePaymentRequestAsTemplate (id : Int) : Receiving Address :=
  match s.system.m_receive_requests.entryById id with
  | none => s
  | some _ => s.forget

/-! ## Runs -/

end Receiving

inductive ReceivingEvent (Address : Type) where
  | update (store : Int → Bool) (id amount : Int) (label message note : String)
  | remove (store : Int → Bool) (id : Int)
  | label (store : Int → Bool) (written : Bool) (address : Address) (label : String)
  | reload
  | notified (txid : Txid) (entry : Option (WalletTx Address × WalletTxStatus))
  | unnotified (txid : Txid) (tx tx' : WalletTx Address) (status status' : WalletTxStatus)
  | deliver (store : Int → Bool)
  | list (scan : Scan Address) (l : List (Txid × WalletTx Address))
  | read (scan : Scan Address)
  | applyScan (store : Int → Bool) (scan : Scan Address)
  | poll
  | readPoll (poll : Poll)
  | applyPoll (poll : Poll)
  | ensureReceivingAddress (answers : ReceiveAnswers Address) (next : Bool) (address_type : Option OutputType)
  | commitReceivingPaymentRequest (answers : ReceiveAnswers Address) (current : HeldRequest Address)
  | setCurrentPaymentRequestAddress (address : Address)
  | usePaymentRequestAsTemplate (id : Int)
  /-- The program is started again over the wallet that it then finds. -/
  | restart (wallet : Wallet Address)

namespace Receiving

variable (api : AddressApi Address)

def step (s : Receiving Address) : ReceivingEvent Address → Receiving Address
  | .update store id amount label message note =>
    { s with system := (updatePaymentRequest store s.system api.isValid id amount label message note).1 }
  | .remove store id => { s with system := (removeReceiveRequest store s.system api.isValid id).1 }
  | .label store written address label =>
    { s with system := (setAddressLabel store s.system written address label).1 }
  | .reload => { s with system := reloadReceiveRequests s.system }
  | .notified txid entry => { s with system := changeNotified s.system txid entry }
  | .unnotified txid tx tx' _ status' => { s with system := changeUnnotified s.system txid tx tx' status' }
  | .deliver store => s.deliverNotification store
  | .list scan l => { s with system := { s.system with scan := some { scan with remaining := some l } } }
  | .read scan => { s with system := { s.system with scan := some (scan.read s.system.wallet) } }
  | .applyScan store scan => s.applyScan store scan
  | .poll => { s with system := pollUnconfirmedReceiveRequestPayments s.system }
  | .readPoll poll => { s with system := { s.system with poll := some (poll.read s.system.wallet) } }
  | .applyPoll poll => { s with system := Receive.applyPoll s.system poll }
  | .ensureReceivingAddress answers next address_type => (s.ensureReceivingAddress api answers next address_type).1
  | .commitReceivingPaymentRequest answers current => (s.commitReceivingPaymentRequest answers current).1
  | .setCurrentPaymentRequestAddress address => s.setCurrentPaymentRequestAddress api address
  | .usePaymentRequestAsTemplate id => s.usePaymentRequestAsTemplate id
  | .restart wallet =>
    { system := Receive.start wallet s.system.stored
      address_setting := s.address_setting
      saved_type := s.saved_type }

/-- A new address of the wallet has the type, was never paid, and is neither asked for nor kept. -/
structure NewAddress (s : Receiving Address) (type : OutputType) (address : Address) : Prop where
  type : api.outputTypeIdFromDestination address = some type
  unpaid : ∀ txid w, s.system.wallet txid = some w → address ∉ ownAddresses w.1
  unasked : address ∉ s.system.m_receive_requests.requestAddresses
  unkept : s.address_setting ≠ some address

/-- The wallet lists its transactions and gives out new addresses. -/
structure Answers (s : Receiving Address) (answers : ReceiveAnswers Address) : Prop where
  getWalletTxs : Lists s.system.wallet answers.getWalletTxs
  getNewDestination : ∀ type address, answers.getNewDestination type = some address → NewAddress api s type address

def Allowed (s : Receiving Address) : ReceivingEvent Address → Prop
  | .unnotified txid tx tx' status _ => txid ∈ s.system.payments.m_receive_request_unconfirmed_txids ∧
      s.system.wallet txid = some (tx, status) ∧ tx'.vout = tx.vout
  | .list scan l => s.system.scan = some scan ∧ scan.remaining = none ∧ Lists s.system.wallet l
  | .read scan => s.system.scan = some scan
  | .applyScan _ scan => s.system.scan = some scan ∧ scan.remaining = some []
  | .readPoll poll => s.system.poll = some poll
  | .applyPoll poll => s.system.poll = some poll ∧ poll.remaining = []
  | .ensureReceivingAddress answers _ _ => Answers api s answers
  -- an id is left for the request
  | .commitReceivingPaymentRequest answers _ => Answers api s answers ∧
      ∀ e ∈ s.system.m_receive_requests.m_entries, e.id ≠ nextPaymentRequestId s.system
  | _ => True

/-- A model that was just built on a wallet, for the first time. -/
def start (wallet : Wallet Address) (stored : ReceiveRequestHistoryModel Address) : Receiving Address :=
  { system := Receive.start wallet stored }

end Receiving

end GuiQml.Receive
