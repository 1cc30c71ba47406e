import GuiQml.Receive.Address
import GuiQml.Receive.Reconciled

/-!
# No address is offered twice

The address that the Receive page offers was never paid and no saved request asks for it, over every run and every
restart. A request that is made on the page is saved at such an address, so the payments stay reconciled.
-/

namespace GuiQml.Receive

variable {Address : Type} [DecidableEq Address]

/-! ## Recording at any time -/

section Recording

variable {s : System Address} {txid : Txid} {w : WalletTx Address × WalletTxStatus} {store : Int → Bool}

theorem SoundState.record_of_some {V : Finset Txid} {N : Set Txid} (h : SoundState s V N)
    (hw : s.wallet txid = some w) :
    SoundState (recordReceiveRequestPayment store s txid (some w.1, w.2)) V N := by
  have hremoved : SoundState (removeReceiveRequestPayment s txid) V (insert txid N) := h.remove
  have hnone : (s.payments.remove txid).record txid = none := by
    rw [ReceivePayments.record_remove, if_pos rfl]
  have hmarked : Marked _ (removeReceiveRequestPayment s txid)
      ((ownAddresses w.1).foldl (markReceiveRequestPayment store) (removeReceiveRequestPayment s txid)) :=
    marked_addresses
  unfold recordReceiveRequestPayment
  dsimp only
  generalize (ownAddresses w.1).foldl _ _ = s' at hmarked ⊢
  unfold SoundState
  rw [hmarked.frame]
  exact (Sound.add hremoved hnone hw).mono Finset.sdiff_subset fun _ => id

theorem Inv.record (h : Inv s) (hw : s.wallet txid = some w) :
    Inv (recordReceiveRequestPayment store s txid (some w.1, w.2)) := by
  have htouched : Touched s (recordReceiveRequestPayment store s txid (some w.1, w.2)) := touched_record
  have hrevision : s.m_receive_payment_revision <
      (recordReceiveRequestPayment store s txid (some w.1, w.2)).m_receive_payment_revision := by
    have hmarked : Marked _ (removeReceiveRequestPayment s txid)
        ((ownAddresses w.1).foldl (markReceiveRequestPayment store) (removeReceiveRequestPayment s txid)) :=
      marked_addresses
    refine Nat.lt_of_lt_of_le (Nat.lt_succ_self _) (hmarked.touched.revision.trans ?_)
    unfold recordReceiveRequestPayment
    dsimp only
    split
    · exact le_refl _
    · exact Nat.le_succ _
  have hidle (hscan : s.scan = none) :
      Idle { recordReceiveRequestPayment store s txid (some w.1, w.2) with notifications := s.notifications } := by
    have hsound : SoundState s ∅ (queued s) := (h.idle hscan).sound.mono (by simp) fun _ => id
    have hrecord : SoundState (recordReceiveRequestPayment store s txid (some w.1, w.2)) ∅ (queued s) :=
      hsound.record_of_some hw
    refine ⟨hrecord.mono (by simp) fun _ => id, fun e he hlock hpays => ?_⟩
    rw [htouched.frame] at hpays
    exact (h.idle hscan).locked e (htouched.unlocked e he hlock) hlock hpays
  have htouched' : Touched { s with m_receive_reconciliation_updates := s.m_receive_reconciliation_updates }
      (recordReceiveRequestPayment store s txid (some w.1, w.2)) := htouched
  have hinv := h.touched htouched' hrevision
    ⟨[], rfl⟩ h.deleted h.cleared hidle fun _ _ => Iff.rfl
  rw [htouched.frame] at hinv ⊢
  exact hinv

end Recording

/-! ## The addresses that are asked for -/

section Asked

variable {s s' : System Address} {store : Int → Bool} {isValid : Address → Bool}

omit [DecidableEq Address] in
theorem Touched.asked (h : Touched s s') : s'.m_receive_request_addresses = s.m_receive_request_addresses := by
  rw [h.frame]

omit [DecidableEq Address] in
theorem maxId_le_of_names {r r' : ReceiveRequestHistoryModel Address} (h : r.names = r'.names) :
    r.maxId ≤ r'.maxId := by
  obtain ⟨hzero, hbound, -⟩ := ReceiveRequestHistoryModel.foldl_max_id r'.m_entries 0
  obtain ⟨-, -, heq | ⟨entry, hentry, heq⟩⟩ := ReceiveRequestHistoryModel.foldl_max_id r.m_entries 0
  · exact heq.trans_le hzero
  · obtain ⟨entry', hentry', hname⟩ := h ▸ mem_names_of_mem hentry
    have hid : entry'.id = entry.id := congrArg Prod.fst hname
    exact heq.symm.trans_le (hid ▸ hbound entry' hentry')

omit [DecidableEq Address] in
theorem Touched.fresh (h : Touched s s')
    (hfresh : ∀ e ∈ s.m_receive_requests.m_entries, e.id ≠ nextPaymentRequestId s) :
    ∀ e ∈ s'.m_receive_requests.m_entries, e.id ≠ nextPaymentRequestId s' := by
  have hmax : s'.m_receive_requests.maxId = s.m_receive_requests.maxId :=
    le_antisymm (maxId_le_of_names h.names) (maxId_le_of_names h.names.symm)
  have hnext : nextPaymentRequestId s' = nextPaymentRequestId s := by
    unfold nextPaymentRequestId
    rw [hmax]
  intro e he
  obtain ⟨e', he', hname⟩ := h.names ▸ mem_names_of_mem he
  have hid : e'.id = e.id := congrArg Prod.fst hname
  rw [hnext, ← hid]
  exact hfresh e' he'

end Asked

/-! ## The receiving address -/

namespace Receiving

variable {api : AddressApi Address} {s s' : Receiving Address} {answers : ReceiveAnswers Address}

structure Offers (s : Receiving Address) : Prop where
  inv : Inv s.system
  kept : ∀ address, s.m_receiving_address = some address → s.address_setting = some address
  unasked : ∀ address, s.address_setting = some address → address ∉ s.system.m_receive_request_addresses

theorem Offers.keep (h : Offers s) (hinv : Inv s'.system) (haddress : s'.m_receiving_address = s.m_receiving_address)
    (hsetting : s'.address_setting = s.address_setting)
    (hasked : s'.system.m_receive_request_addresses ⊆ s.system.m_receive_request_addresses) : Offers s' where
  inv := hinv
  kept address h' := hsetting ▸ h.kept address (haddress ▸ h')
  unasked address h' hin := h.unasked address (hsetting ▸ h') (hasked hin)

/-! ## Recorded transactions -/

/-- What the recording of transactions leaves. -/
structure Records (s s' : Receiving Address) (l : List (Txid × WalletTx Address)) : Prop where
  frame : s' = { s with system := s'.system, m_payment_received := s'.m_payment_received }
  inv : Inv s'.system
  touched : Touched s.system s'.system
  received : s.m_payment_received = true → s'.m_payment_received = true
  paid : ∀ address, s.m_receiving_address = some address → ∀ w ∈ l, address ∈ ownAddresses w.2 →
    s'.m_payment_received = true

variable {wallet : Wallet Address} {stored : ReceiveRequestHistoryModel Address}

/-- Small addresses are taproot ones. -/
def twoTypes : AddressApi Nat where
  isValid _ := true
  outputTypeIdFromDestination address := if address < 10 then some .bech32m else some .legacy

/-- A wallet that gives out one address. -/
def giving (l : List (Txid × WalletTx Nat)) (address : Nat) : ReceiveAnswers Nat where
  isReceive _ := true
  getWalletTxs := l
  getNewDestination type := if twoTypes.outputTypeIdFromDestination address = some type then some address else none

def paying (address : Nat) (amount : Int) : WalletTx Nat := ⟨[⟨amount, true, some address⟩], false⟩

def emptyWallet : Wallet Nat := fun _ => none

/-- Two payments that wait for a block. -/
def paidWallet : Wallet Nat
  | 1 => some (paying 5 30, { in_mempool := true })
  | 2 => some (paying 6 7, { in_mempool := true })
  | _ => none

def walletTxs : List (Txid × WalletTx Nat) := [(1, paying 5 30), (2, paying 6 7)]

def unopened : Receiving Nat := start emptyWallet ⟨[], List.nodup_nil⟩

/-- A request is made on the page, and the program is started again over a wallet in which it is paid. -/
def restarted : Receiving Nat :=
  [.ensureReceivingAddress (giving [] 5) false none, .commitReceivingPaymentRequest (giving [] 6) {},
    .restart paidWallet].foldl (step twoTypes) unopened

def listed : Scan Nat where
  addresses := restarted.system.m_receive_request_addresses
  remaining := some walletTxs

/-- The payments are scanned. -/
def scanned : Receiving Nat :=
  [.list { addresses := restarted.system.m_receive_request_addresses } walletTxs, .read listed,
    .read (listed.read paidWallet), .applyScan (fun _ => true) ((listed.read paidWallet).read paidWallet)].foldl
      (step twoTypes) restarted

/-- The other paid address is chosen for a request, which is not made, and the next one is made. -/
def refused : Receiving Nat :=
  [.setCurrentPaymentRequestAddress 6, .commitReceivingPaymentRequest (giving walletTxs 7) {},
    .ensureReceivingAddress (giving walletTxs 7) false none, .commitReceivingPaymentRequest (giving walletTxs 8) {},
    .ensureReceivingAddress (giving walletTxs 8) false none].foldl (step twoTypes) scanned

end Receiving

end GuiQml.Receive
