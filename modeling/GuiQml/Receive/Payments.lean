import GuiQml.Lib.Tally

/-!
# Received payments

What a wallet transaction pays to the addresses of receive requests, and the tables that hold it:
`ScanReceiveRequestTransaction` and the four maps of `walletqmlmodel.cpp`. An amount is an integer without
bound.
-/

namespace GuiQml.Receive

/-- A `Txid` as a number. -/
abbrev Txid := Nat

/-! ## Wallet transactions -/

structure Output (Address : Type) where
  nValue : Int
  /-- Whether `txout_is_mine` has the output. -/
  is_mine : Bool
  destination : Option Address

structure WalletTx (Address : Type) where
  vout : List (Output Address)
  /-- Whether `replaced_by_txid` is there and not empty. -/
  replaced : Bool

/-- The part of the details that tells whether a transaction counts. -/
structure WalletTxStatus where
  depth_in_main_chain : Int := 0
  is_abandoned : Bool := false
  in_mempool : Bool := false

abbrev Wallet (Address : Type) := Txid → Option (WalletTx Address × WalletTxStatus)

/-- The details of a transaction that the wallet does not have are zero. -/
def getWalletTxDetails {Address : Type} (wallet : Wallet Address) (txid : Txid) :
    Option (WalletTx Address) × WalletTxStatus :=
  match wallet txid with
  | some (tx, status) => (some tx, status)
  | none => (none, {})

def isInactive (status : WalletTxStatus) (replaced : Bool) : Bool :=
  status.depth_in_main_chain < 0 || status.is_abandoned ||
    (status.depth_in_main_chain = 0 && (!status.in_mempool || replaced))

section Payments

variable {Address : Type} [DecidableEq Address]

abbrev Payment (Address : Type) := List (Address × Int)

/-- `received[address] += value`. -/
def addReceived : Payment Address → Address × Int → Payment Address
  | [], w => [w]
  | (address, amount) :: rest, w =>
    if address = w.1 then (address, amount + w.2) :: rest else (address, amount) :: addReceived rest w

/-- The address that an output of the wallet pays. -/
def ownAddress (output : Output Address) : Option Address :=
  if output.nValue ≤ 0 || !output.is_mine then none else output.destination

def ownAddresses (tx : WalletTx Address) : List Address := tx.vout.filterMap ownAddress

/-- What an output pays to a receive request. -/
def requestOutput (request_addresses : Finset Address) (output : Output Address) :
    Option (Address × Int) :=
  (ownAddress output).bind fun address =>
    if address ∈ request_addresses then some (address, output.nValue) else none

structure Scanned (Address : Type) where
  received : Payment Address := []
  observed : List Address := []
  unconfirmed : Bool := false

def requestOutputs (request_addresses : Finset Address) (tx : WalletTx Address) :
    List (Address × Int) := tx.vout.filterMap (requestOutput request_addresses)

def receivedOf (request_addresses : Finset Address) (tx : WalletTx Address) : Payment Address :=
  (requestOutputs request_addresses tx).foldl addReceived []

def scanReceiveRequestTransaction (tx : WalletTx Address) (status : WalletTxStatus)
    (request_addresses : Finset Address) : Scanned Address :=
  let received := receivedOf request_addresses tx
  if received.isEmpty then {}
  else
    let observed := (requestOutputs request_addresses tx).map (·.1)
    if isInactive status tx.replaced then { observed }
    else { received, observed, unconfirmed := status.depth_in_main_chain = 0 }

/-! ## Tables -/

/-- `m_receive_request_payments` with `m_receive_request_totals` and
`m_receive_request_txids_by_address`, and the unconfirmed ones. -/
structure ReceivePayments (Address : Type) where
  payments : Tally Txid Address := {}
  m_receive_request_unconfirmed_txids : Finset Txid := ∅

namespace ReceivePayments

def remove (p : ReceivePayments Address) (txid : Txid) : ReceivePayments Address where
  payments := p.payments.erase txid
  m_receive_request_unconfirmed_txids := p.m_receive_request_unconfirmed_txids.erase txid

def add (p : ReceivePayments Address) (txid : Txid) (scanned : Scanned Address) :
    ReceivePayments Address :=
  if scanned.received.isEmpty then p
  else
    { payments := p.payments.insert txid scanned.received
      m_receive_request_unconfirmed_txids :=
        if scanned.unconfirmed then insert txid p.m_receive_request_unconfirmed_txids
        else p.m_receive_request_unconfirmed_txids }

/-- A poll found the transaction confirmed. -/
def confirm (p : ReceivePayments Address) (txid : Txid) : ReceivePayments Address :=
  { p with m_receive_request_unconfirmed_txids := p.m_receive_request_unconfirmed_txids.erase txid }

end ReceivePayments

/-- `ReceiveRequestPaymentScan`. -/
structure ReceiveRequestPaymentScan (Address : Type) where
  payments : ReceivePayments Address := {}
  observed_addresses : List Address := []

def ReceiveRequestPaymentScan.add (scan : ReceiveRequestPaymentScan Address) (txid : Txid)
    (scanned : Scanned Address) : ReceiveRequestPaymentScan Address where
  payments := scan.payments.add txid scanned
  observed_addresses := scan.observed_addresses ++ scanned.observed

/-! ## What a transaction is recorded as -/

section Facts

variable {p p' : ReceivePayments Address} {txid other : Txid} {scanned : Scanned Address}
  {A B : Finset Address} {tx : WalletTx Address} {status : WalletTxStatus}

/-- The payment of a transaction and whether it is unconfirmed. -/
abbrev Record (Address : Type) := Option (Payment Address × Bool)

def Scanned.record (scanned : Scanned Address) : Record Address :=
  if scanned.received.isEmpty then none else some (scanned.received, scanned.unconfirmed)

namespace ReceivePayments

def record (p : ReceivePayments Address) (txid : Txid) : Record Address :=
  (p.payments.entries txid).map (·, decide (txid ∈ p.m_receive_request_unconfirmed_txids))

structure WF (p : ReceivePayments Address) : Prop where
  payments : p.payments.WF
  unconfirmed : ∀ txid ∈ p.m_receive_request_unconfirmed_txids, p.record txid ≠ none

theorem WF.empty : WF ({} : ReceivePayments Address) where
  payments := Tally.WF.empty
  unconfirmed txid h := by simp at h

omit [DecidableEq Address] in
@[simp] theorem record_empty : record ({} : ReceivePayments Address) txid = none := rfl

theorem WF.ext (h : WF p) (h' : WF p') (hrecord : ∀ txid, p.record txid = p'.record txid) :
    p = p' := by
  have hentries : p.payments.entries = p'.payments.entries := by
    funext txid
    have := congrArg (Option.map Prod.fst) (hrecord txid)
    simpa [record, Option.map_map, Function.comp_def] using this
  have hunconfirmed : p.m_receive_request_unconfirmed_txids =
      p'.m_receive_request_unconfirmed_txids := by
    ext txid
    have heq := hrecord txid
    have hp := h.unconfirmed txid
    have hp' := h'.unconfirmed txid
    unfold record at heq hp hp'
    rw [← hentries] at heq hp'
    cases hentry : p.payments.entries txid with
    | none => simp_all
    | some payment => simpa [hentry] using heq
  obtain ⟨payments, unconfirmed⟩ := p
  obtain ⟨payments', unconfirmed'⟩ := p'
  obtain rfl : payments = payments' := h.payments.ext h'.payments hentries
  obtain rfl : unconfirmed = unconfirmed' := hunconfirmed
  rfl

theorem record_remove : (p.remove txid).record other = if other = txid then none else p.record other := by
  unfold record remove
  dsimp only
  rw [Tally.entries_erase, Function.update_apply]
  split <;> simp_all

theorem WF.remove (h : WF p) : WF (p.remove txid) where
  payments := h.payments.erase
  unconfirmed other hother := by
    obtain ⟨hne, hin⟩ := Finset.mem_erase.mp hother
    rw [record_remove, if_neg hne]
    exact h.unconfirmed other hin

omit [DecidableEq Address] in
theorem record_confirm : (p.confirm txid).record other =
    if other = txid then (p.record other).map fun r => (r.1, false) else p.record other := by
  unfold record confirm
  dsimp only
  split
  · rename_i heq
    subst heq
    cases p.payments.entries other <;> simp
  · rename_i hne
    simp [hne]

theorem WF.confirm (h : WF p) : WF (p.confirm txid) where
  payments := h.payments
  unconfirmed other hother := by
    obtain ⟨hne, hin⟩ := Finset.mem_erase.mp hother
    rw [record_confirm, if_neg hne]
    exact h.unconfirmed other hin

theorem record_add (hnone : p.record txid = none) (h : WF p) :
    (p.add txid scanned).record other =
      if other = txid then scanned.record else p.record other := by
  have hnot : txid ∉ p.m_receive_request_unconfirmed_txids := fun hin => h.unconfirmed _ hin hnone
  unfold add Scanned.record
  by_cases hempty : scanned.received.isEmpty = true
  · rw [if_pos hempty, if_pos hempty]
    split
    · rename_i heq
      rw [heq, hnone]
    · rfl
  · rw [if_neg hempty, if_neg hempty]
    unfold record
    dsimp only
    rw [Tally.entries_insert, Function.update_apply]
    by_cases hother : other = txid
    · subst hother
      cases scanned.unconfirmed <;> simp [hnot]
    · cases scanned.unconfirmed <;> simp [hother]

theorem WF.add (h : WF p) (hnone : p.record txid = none) (hproper : Tally.Proper scanned.received) :
    WF (p.add txid scanned) where
  payments := by
    unfold ReceivePayments.add
    split
    · exact h.payments
    · refine h.payments.insert ?_ hproper
      simpa [record] using hnone
  unconfirmed other hother := by
    rw [record_add hnone h]
    unfold ReceivePayments.add at hother
    unfold Scanned.record
    by_cases hempty : scanned.received.isEmpty = true
    · rw [if_pos hempty] at hother
      rw [if_pos hempty]
      have hrecord := h.unconfirmed other hother
      split
      · rename_i heq
        exact absurd hnone (heq ▸ hrecord)
      · exact hrecord
    · rw [if_neg hempty] at hother
      rw [if_neg hempty]
      split
      · simp
      · rename_i hne
        refine h.unconfirmed other ?_
        cases hunconfirmed : scanned.unconfirmed <;> simpa [hunconfirmed, hne] using hother

end ReceivePayments

/-! ## What a transaction pays -/

theorem proper_addReceived {received : Payment Address} (h : Tally.Proper received)
    {w : Address × Int} (hw : 0 < w.2) :
    Tally.Proper (addReceived received w) ∧
      ∀ a, a ∈ (addReceived received w).map (·.1) ↔ a ∈ received.map (·.1) ∨ a = w.1 := by
  induction received with
  | nil =>
    unfold addReceived
    exact ⟨⟨List.nodup_singleton _, by simpa using hw⟩, by simp⟩
  | cons v rest ih =>
    obtain ⟨hnodup, hpos⟩ := h
    rw [List.map_cons, List.nodup_cons] at hnodup
    have hrest : Tally.Proper rest := ⟨hnodup.2, fun x hx => hpos x (List.mem_cons_of_mem _ hx)⟩
    obtain ⟨⟨hnodup', hpos'⟩, hmem⟩ := ih hrest
    have hv := hpos v List.mem_cons_self
    unfold addReceived
    split
    · rename_i heq
      refine ⟨⟨by simpa using hnodup, ?_⟩, fun a => ?_⟩
      · intro x hx
        rcases List.mem_cons.mp hx with rfl | hx
        · exact Int.add_pos hv hw
        · exact hrest.pos x hx
      · simp only [List.map_cons, List.mem_cons]
        constructor
        · exact .inl
        · rintro (h | rfl)
          · exact h
          · exact .inl heq.symm
    · rename_i hne
      refine ⟨⟨?_, ?_⟩, fun a => ?_⟩
      · rw [List.map_cons, List.nodup_cons, hmem]
        exact ⟨fun h => h.elim hnodup.1 hne, hnodup'⟩
      · intro x hx
        rcases List.mem_cons.mp hx with rfl | hx
        · exact hv
        · exact hpos' x hx
      · simp only [List.map_cons, List.mem_cons, hmem, or_assoc]

theorem requestOutput_eq_some {output : Output Address} {w : Address × Int} :
    requestOutput A output = some w ↔
      ownAddress output = some w.1 ∧ w.1 ∈ A ∧ w.2 = output.nValue := by
  obtain ⟨address, amount⟩ := w
  unfold requestOutput
  cases ownAddress output with
  | none => simp
  | some a =>
    rw [Option.bind_some]
    split <;> simp <;> grind

omit [DecidableEq Address] in
theorem pos_of_ownAddress {output : Output Address} {address : Address}
    (h : ownAddress output = some address) : 0 < output.nValue := by
  unfold ownAddress at h
  split at h
  · cases h
  · rename_i hcond
    simp only [Bool.or_eq_true, decide_eq_true_eq, not_or] at hcond
    omega

theorem proper_receivedOf : Tally.Proper (receivedOf A tx) := by
  have hfold : ∀ (l : List (Address × Int)) (received : Payment Address), Tally.Proper received →
      (∀ w ∈ l, 0 < w.2) → Tally.Proper (l.foldl addReceived received) := by
    intro l
    induction l with
    | nil => exact fun _ h _ => h
    | cons w l ih =>
      intro received h hl
      exact ih _ (proper_addReceived h (hl w List.mem_cons_self)).1
        fun x hx => hl x (List.mem_cons_of_mem _ hx)
  refine hfold _ [] ⟨List.nodup_nil, fun _ h => nomatch h⟩ fun w hw => ?_
  obtain ⟨output, -, hsome⟩ := List.mem_filterMap.mp hw
  obtain ⟨hown, -, hvalue⟩ := requestOutput_eq_some.mp hsome
  rw [hvalue]
  exact pos_of_ownAddress hown

theorem requestOutputs_insert {address : Address} (h : address ∉ ownAddresses tx) :
    requestOutputs (insert address A) tx = requestOutputs A tx := by
  unfold requestOutputs
  refine List.filterMap_congr fun output houtput => ?_
  unfold requestOutput
  cases hown : ownAddress output with
  | none => rfl
  | some a =>
    have hne : a ≠ address := fun heq => h (List.mem_filterMap.mpr ⟨output, houtput, heq ▸ hown⟩)
    simp [hne]

/-- What is observed is what the wallet's own outputs pay, at the addresses of requests. -/
theorem mem_requestOutputs {address : Address} :
    address ∈ (requestOutputs A tx).map (·.1) ↔ address ∈ ownAddresses tx ∧ address ∈ A := by
  unfold requestOutputs ownAddresses
  simp only [List.mem_map, List.mem_filterMap, requestOutput_eq_some]
  constructor
  · rintro ⟨w, ⟨output, houtput, hown, hin, -⟩, rfl⟩
    exact ⟨⟨output, houtput, hown⟩, hin⟩
  · rintro ⟨⟨output, houtput, hown⟩, hin⟩
    exact ⟨(address, output.nValue), ⟨output, houtput, hown, hin, rfl⟩, rfl⟩

theorem receivedOf_isEmpty : (receivedOf A tx).isEmpty = (requestOutputs A tx).isEmpty := by
  unfold receivedOf
  cases requestOutputs A tx with
  | nil => rfl
  | cons w l =>
    have hfold : ∀ (l : List (Address × Int)) (received : Payment Address), received.isEmpty = false →
        (l.foldl addReceived received).isEmpty = false := by
      intro l
      induction l with
      | nil => exact fun _ h => h
      | cons w l ih =>
        intro received h
        refine ih _ ?_
        unfold addReceived
        split
        · rfl
        · split <;> rfl
    exact hfold l _ rfl

theorem record_scan : (scanReceiveRequestTransaction tx status A).record =
    if (receivedOf A tx).isEmpty || isInactive status tx.replaced then none
    else some (receivedOf A tx, decide (status.depth_in_main_chain = 0)) := by
  unfold scanReceiveRequestTransaction Scanned.record
  dsimp only
  by_cases hempty : (receivedOf A tx).isEmpty = true
  · simp [hempty]
  · by_cases hinactive : isInactive status tx.replaced = true
    · simp [hempty, hinactive]
    · simp [hempty, hinactive]

theorem proper_scan : Tally.Proper (scanReceiveRequestTransaction tx status A).received := by
  have hnil : Tally.Proper ([] : Payment Address) := ⟨List.nodup_nil, fun _ h => nomatch h⟩
  unfold scanReceiveRequestTransaction
  dsimp only
  split
  · exact hnil
  split
  · exact hnil
  · exact proper_receivedOf

theorem observed_scan {address : Address} :
    address ∈ (scanReceiveRequestTransaction tx status A).observed ↔
      address ∈ ownAddresses tx ∧ address ∈ A := by
  rw [← mem_requestOutputs]
  unfold scanReceiveRequestTransaction
  dsimp only
  split
  · rename_i hempty
    rw [receivedOf_isEmpty, List.isEmpty_iff] at hempty
    rw [hempty]
    rfl
  split <;> rfl

end Facts

end Payments

end GuiQml.Receive
