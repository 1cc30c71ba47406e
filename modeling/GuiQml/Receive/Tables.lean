import GuiQml.Receive.Reconciled
import Mathlib.Algebra.BigOperators.Finprod

/-!
# The tables of received payments

What the four tables say in every run of the functions that change them. The wallet may answer a function
in any way, and between two functions anything else may happen that leaves the tables alone.
-/

namespace GuiQml.Receive

/-! ## Runs -/

section Runs

variable {Address : Type} [DecidableEq Address]

/-- The scan of a list of wallet transactions, each with the status it had when it was read. -/
def scanOf (request_addresses : Finset Address) (txs : List (Txid × WalletTx Address × WalletTxStatus)) :
    ReceiveRequestPaymentScan Address :=
  txs.foldl (fun scan tx =>
    scan.add tx.1 (scanReceiveRequestTransaction tx.2.1 tx.2.2 request_addresses)) {}

/-- A scan that reads one more transaction is the scan of one more transaction. -/
theorem read_scanOf {scan : Scan Address} {wallet : Wallet Address} {txid : Txid} {tx : WalletTx Address}
    {rest : List (Txid × WalletTx Address)} {txs : List (Txid × WalletTx Address × WalletTxStatus)}
    (hremaining : scan.remaining = some ((txid, tx) :: rest))
    (hresult : scan.result = scanOf scan.addresses txs) :
    (scan.read wallet).result =
      scanOf scan.addresses (txs ++ [(txid, tx, (getWalletTxDetails wallet txid).2)]) := by
  unfold Scan.read scanOf
  rw [hremaining, List.foldl_append, hresult]
  rfl

/-- One step. The wallet lists a transaction once. A reload clears the tables. -/
inductive TableStep : System Address → System Address → Prop
  | applyScan {s} (store scan request_addresses txs) : (txs.map Prod.fst).Nodup →
      scan.result = scanOf request_addresses txs → TableStep s (applyScan store s scan)
  | record {s} (store txid details) : TableStep s (recordReceiveRequestPayment store s txid details)
  | remove {s} (txid) : TableStep s (removeReceiveRequestPayment s txid)
  | recheck {s} (changed_txid) : TableStep s (recheckReceiveRequestPayments s changed_txid)
  | applyPoll {s} (poll) : TableStep s (applyPoll s poll)
  | elsewhere {s s'} : s'.payments = s.payments ∨ s'.payments = {} → TableStep s s'

/-- The four tables say the same. -/
structure ReceivePayments.Consistent (p : ReceivePayments Address) : Prop where
  total : ∀ address total, p.payments.totals address = some total →
    total = ∑ᶠ txid, p.payments.amount address txid
  absent : ∀ address, p.payments.totals address = none ↔ ∀ txid, ¬ p.payments.Has address txid
  index : ∀ address txid,
    (∃ txids, p.payments.index address = some txids ∧ txid ∈ txids) ↔ p.payments.Has address txid
  indexed : ∀ address txids, p.payments.index address = some txids → txids.Nonempty
  unconfirmed : ∀ txid ∈ p.m_receive_request_unconfirmed_txids, p.payments.entries txid ≠ none

/-- The same but for the revision. -/
def SameUpToRevision (s s' : System Address) : Prop :=
  s' = { s with m_receive_payment_revision := s'.m_receive_payment_revision }

end Runs

/-! ## What a step preserves -/

section Steps

variable {Address : Type} [DecidableEq Address] {p : ReceivePayments Address} {s s' : System Address}
  {store : Int → Bool} {txid : Txid}

theorem foldl_scan_wf {request_addresses : Finset Address}
    {txs : List (Txid × WalletTx Address × WalletTxStatus)} {scan : ReceiveRequestPaymentScan Address}
    (htxs : (txs.map Prod.fst).Nodup) (hscan : scan.payments.WF)
    (hnew : ∀ txid ∈ txs.map Prod.fst, scan.payments.record txid = none) :
    (txs.foldl (fun scan tx =>
      scan.add tx.1 (scanReceiveRequestTransaction tx.2.1 tx.2.2 request_addresses)) scan).payments.WF := by
  induction txs generalizing scan with
  | nil => exact hscan
  | cons tx txs ih =>
    simp only [List.map_cons, List.nodup_cons, List.forall_mem_cons] at htxs hnew
    rw [List.foldl_cons]
    apply ih htxs.2
    · exact hscan.add hnew.1 proper_scan
    · intro txid htxid
      have hne : txid ≠ tx.1 := fun heq => htxs.1 (heq ▸ htxid)
      unfold ReceiveRequestPaymentScan.add
      dsimp only
      rw [ReceivePayments.record_add hnew.1 hscan, if_neg hne]
      exact hnew.2 txid htxid

theorem scanOf_wf {request_addresses : Finset Address}
    {txs : List (Txid × WalletTx Address × WalletTxStatus)} (htxs : (txs.map Prod.fst).Nodup) :
    (scanOf request_addresses txs).payments.WF :=
  foldl_scan_wf htxs .empty fun _ _ => rfl

theorem payments_record {tx : WalletTx Address} {status : WalletTxStatus} :
    (recordReceiveRequestPayment store s txid (some tx, status)).payments =
      (s.payments.remove txid).add txid
        (scanReceiveRequestTransaction tx status s.m_receive_request_addresses) := by
  have hmarked : Marked _ (removeReceiveRequestPayment s txid)
      ((ownAddresses tx).foldl (markReceiveRequestPayment store) (removeReceiveRequestPayment s txid)) :=
    marked_addresses
  unfold recordReceiveRequestPayment
  dsimp only
  rw [hmarked.frame]
  rfl

theorem wf_record {details : Option (WalletTx Address) × WalletTxStatus} (h : s.payments.WF) :
    (recordReceiveRequestPayment store s txid details).payments.WF := by
  obtain ⟨_ | tx, status⟩ := details
  · exact h
  · rw [payments_record]
    apply h.remove.add _ proper_scan
    rw [ReceivePayments.record_remove, if_pos rfl]

theorem wf_recheck (h : s.payments.WF) : (recheckReceiveRequestPayments s txid).payments.WF := by
  unfold recheckReceiveRequestPayments
  generalize (relatedTxids s.payments.payments txid).sort (· ≤ ·) = related
  induction related generalizing s with
  | nil => exact h
  | cons other related ih =>
    rw [List.foldl_cons]
    apply ih
    unfold recheckOne
    split
    · exact h.remove
    · exact h

theorem wf_updateTransaction {update : Txid × Bool} (h : s.payments.WF) :
    (updateTransaction store s update).payments.WF := by
  have hremoved : (removeReceiveRequestPayment s update.1).payments.WF := h.remove
  unfold updateTransaction inspect
  dsimp only
  split
  · exact hremoved
  · exact wf_recheck (wf_record hremoved)

theorem wf_updates {updates : List (Txid × Bool)} (h : s.payments.WF) :
    (updates.foldl (updateTransaction store) s).payments.WF := by
  induction updates generalizing s with
  | nil => exact h
  | cons update updates ih => exact ih (wf_updateTransaction h)

theorem wf_refresh (h : s.payments.WF) : (refreshReceiveRequestPayments s).payments.WF := by
  unfold refreshReceiveRequestPayments
  split
  · exact h
  split
  · exact .empty
  · exact h

theorem wf_applyScan {scan : Scan Address} (h : s.payments.WF) (hscan : scan.result.payments.WF) :
    (applyScan store s scan).payments.WF := by
  unfold applyScan
  dsimp only
  split
  · exact wf_refresh h
  · apply wf_updates
    rw [marked_addresses.frame]
    exact hscan

theorem wf_applyPoll {poll : Poll} (h : s.payments.WF) : (applyPoll s poll).payments.WF := by
  unfold applyPoll
  dsimp only
  split
  · exact h
  · obtain ⟨revision, heq, -⟩ := foldl_remove (l := poll.inactive) (s := { s with poll := none })
    unfold inspect
    rw [heq, foldl_confirm]
    exact wf_confirmed (wf_removed h)

theorem TableStep.wf (hstep : TableStep s s') (h : s.payments.WF) : s'.payments.WF := by
  cases hstep with
  | applyScan store scan request_addresses txs htxs hresult =>
    apply wf_applyScan h
    rw [hresult]
    exact scanOf_wf htxs
  | record => exact wf_record h
  | remove => exact h.remove
  | recheck => exact wf_recheck h
  | applyPoll => exact wf_applyPoll h
  | elsewhere heq =>
    rcases heq with heq | heq <;> rw [heq]
    · exact h
    · exact .empty

end Steps

/-! ## What the tables say -/

section Consistent

variable {Address : Type} [DecidableEq Address] {p : ReceivePayments Address} {s s₀ : System Address}
  {txid : Txid}

theorem ReceivePayments.WF.consistent (h : p.WF) : p.Consistent := by
  have hkept := h.payments.kept
  constructor
  · intro address total htotal
    obtain ⟨txids, hmem, -, htotals⟩ := hkept address
    rw [htotals] at htotal
    split at htotal
    · cases htotal
    · rw [← Option.some.inj htotal]
      symm
      apply finsum_eq_sum_of_support_subset
      intro txid htxid
      by_contra hnot
      exact htxid (Tally.amount_eq_zero fun hhas => hnot (Finset.mem_coe.mpr ((hmem txid).mpr hhas)))
  · intro address
    obtain ⟨txids, hmem, -, htotals⟩ := hkept address
    rw [htotals]
    simp only [← hmem, ite_eq_left_iff, Finset.eq_empty_iff_forall_notMem, reduceCtorEq, imp_false, not_not]
  · intro address txid
    obtain ⟨txids, hmem, hindex, -⟩ := hkept address
    rw [hindex, ← hmem]
    split
    · rename_i hempty
      simp [hempty]
    · simp
  · intro address txids htxids
    obtain ⟨keys, -, hindex, -⟩ := hkept address
    rw [hindex] at htxids
    split at htxids
    · cases htxids
    · rw [← Option.some.inj htxids]
      exact Finset.nonempty_iff_ne_empty.mpr ‹_›
  · intro txid htxid hnone
    apply h.unconfirmed txid htxid
    simp [record, hnone]

theorem foldl_mark_eq {store : Int → Bool} {addresses : List Address}
    (h : ∀ entry ∈ s.m_receive_requests.m_entries, entry.address ∈ addresses →
      entry.payment_received = true) :
    addresses.foldl (markReceiveRequestPayment store) s = s := by
  have hmark : ∀ address ∈ addresses, markReceiveRequestPayment store s address = s := by
    intro address haddress
    unfold markReceiveRequestPayment
    have hlocked : ∀ entry ∈ s.m_receive_requests.entriesForAddress address,
        markEntry store s entry = s := by
      intro entry hentry
      obtain ⟨hin, rfl⟩ := ReceiveRequestHistoryModel.mem_entriesForAddress.mp hentry
      rw [markEntry, if_pos (h entry hin haddress)]
    generalize s.m_receive_requests.entriesForAddress address = entries at hlocked
    induction entries with
    | nil => rfl
    | cons entry entries ih =>
      simp only [List.forall_mem_cons] at hlocked
      rw [List.foldl_cons, hlocked.1, ih hlocked.2]
  clear h
  induction addresses with
  | nil => rfl
  | cons address addresses ih =>
    simp only [List.forall_mem_cons] at hmark
    rw [List.foldl_cons, hmark.1, ih hmark.2]

/-- A transaction that is taken out and put in again leaves the tables as they are. -/
theorem ReceivePayments.WF.add_again {scanned : Scanned Address} (h : p.WF) (hnone : p.record txid = none)
    (hproper : Tally.Proper scanned.received) :
    ((p.add txid scanned).remove txid).add txid scanned = p.add txid scanned := by
  have hadd := h.add hnone hproper
  have hremoved : ((p.add txid scanned).remove txid).record txid = none := by
    rw [record_remove, if_pos rfl]
  apply (hadd.remove.add hremoved hproper).ext hadd
  intro other
  rw [record_add hremoved hadd.remove, record_remove, record_add hnone h]
  split <;> rfl

theorem record_again {store store' : Int → Bool} {details : Option (WalletTx Address) × WalletTxStatus}
    (h : s.payments.WF) :
    SameUpToRevision (recordReceiveRequestPayment store s txid details)
      (recordReceiveRequestPayment store' (recordReceiveRequestPayment store s txid details) txid
        details) := by
  obtain ⟨_ | tx, status⟩ := details
  · rfl
  · have hmarked : Marked _ (removeReceiveRequestPayment s txid)
        ((ownAddresses tx).foldl (markReceiveRequestPayment store) (removeReceiveRequestPayment s txid)) :=
      marked_addresses
    generalize hmarks : (ownAddresses tx).foldl (markReceiveRequestPayment store)
      (removeReceiveRequestPayment s txid) = marks at hmarked
    have hpayments : marks.payments = s.payments.remove txid := by
      rw [hmarked.frame]
      rfl
    have hwf : marks.payments.WF := hpayments ▸ h.remove
    have hnone : marks.payments.record txid = none := by
      rw [hpayments, ReceivePayments.record_remove, if_pos rfl]
    have hlocked : ∀ entry ∈ marks.m_receive_requests.m_entries, entry.address ∈ ownAddresses tx →
        entry.payment_received = true := by
      intro entry hentry haddress
      by_contra hnot
      exact (hmarked.unlocked entry hentry (Bool.not_eq_true _ ▸ hnot)).2 haddress
    have hsecond : ∀ s', s'.m_receive_requests = marks.m_receive_requests →
        (ownAddresses tx).foldl (markReceiveRequestPayment store') s' = s' := by
      intro s' heq
      exact foldl_mark_eq (heq ▸ hlocked)
    unfold SameUpToRevision recordReceiveRequestPayment
    dsimp only
    rw [hmarks, hsecond]
    · simp only [removeReceiveRequestPayment]
      rw [hwf.add_again hnone proper_scan]
    · rfl

theorem wf_of_tableSteps (hstart : s₀.payments = {}) (h : Relation.ReflTransGen TableStep s₀ s) :
    s.payments.WF := by
  induction h with
  | refl => exact hstart ▸ .empty
  | tail _ hstep ih => exact hstep.wf ih

/-- In every run the tables say the same, and a transaction that is recorded twice is as if recorded once. -/
theorem tables_consistent (hstart : s₀.payments = {}) (h : Relation.ReflTransGen TableStep s₀ s) :
    s.payments.Consistent ∧ ∀ store store' txid details,
      SameUpToRevision (recordReceiveRequestPayment store s txid details)
        (recordReceiveRequestPayment store' (recordReceiveRequestPayment store s txid details) txid
          details) := by
  have hwf : s.payments.WF := wf_of_tableSteps hstart h
  exact ⟨hwf.consistent, fun _ _ _ _ => record_again hwf⟩

end Consistent

/-! ## The runs of the model -/

section Model

variable {Address : Type} [DecidableEq Address] {s s' s'' : System Address} {store : Int → Bool}

/-- What a scan has so far: it has read some transactions, each once, and those that it has still to read are others. -/
def ReadOnce (scan : Scan Address) : Prop :=
  ∃ txs, scan.result = scanOf scan.addresses txs ∧ (scan.remaining = none → txs = []) ∧
    (txs.map Prod.fst ++ (scan.remaining.getD []).map Prod.fst).Nodup

theorem readOnce_start {addresses : Finset Address} : ReadOnce { addresses } :=
  ⟨[], rfl, fun _ => rfl, List.nodup_nil⟩

theorem ReadOnce.list {scan : Scan Address} {wallet : Wallet Address} {l : List (Txid × WalletTx Address)}
    (h : ReadOnce scan) (hnone : scan.remaining = none) (hlists : Lists wallet l) :
    ReadOnce { scan with remaining := some l } := by
  obtain ⟨txs, hresult, hempty, -⟩ := h
  obtain rfl := hempty hnone
  exact ⟨[], hresult, fun _ => rfl, by simpa using hlists.1⟩

theorem ReadOnce.read {scan : Scan Address} {wallet : Wallet Address} (h : ReadOnce scan) :
    ReadOnce (scan.read wallet) := by
  obtain ⟨txs, hresult, hempty, hnodup⟩ := h
  match hremaining : scan.remaining with
  | some ((txid, tx) :: rest) =>
    have hread : (scan.read wallet).result =
        scanOf scan.addresses (txs ++ [(txid, tx, (getWalletTxDetails wallet txid).2)]) :=
      read_scanOf hremaining hresult
    have haddresses : (scan.read wallet).addresses = scan.addresses := by simp [Scan.read, hremaining]
    have hrest : (scan.read wallet).remaining = some rest := by simp [Scan.read, hremaining]
    refine ⟨_, haddresses ▸ hread, fun hnone => ?_, ?_⟩
    · rw [hrest] at hnone
      cases hnone
    · rw [hremaining] at hnodup
      rw [hrest]
      simpa using hnodup
  | some [] | none =>
    have hsame : scan.read wallet = scan := by simp [Scan.read, hremaining]
    rw [hsame]
    exact ⟨txs, hresult, hempty, hnodup⟩

theorem ReadOnce.change {scan : Scan Address} {txid : Txid} {replaced_changed : Bool} (h : ReadOnce scan) :
    ReadOnce (scan.change txid replaced_changed) := by
  unfold Scan.change
  split
  · exact h
  · split
    · exact h
    · exact h

theorem ReadOnce.tableStep {scan : Scan Address} (h : ReadOnce scan) (hread : scan.remaining = some []) :
    TableStep s (applyScan store s scan) := by
  obtain ⟨txs, hresult, -, hnodup⟩ := h
  rw [hread] at hnodup
  exact .applyScan store scan scan.addresses txs (by simpa using hnodup) hresult

/-- Neither the scan nor the tables are touched, unless it starts anew or they are cleared. -/
structure Aside (s s' : System Address) : Prop where
  scan : s'.scan = s.scan ∨ s'.scan = none ∨ ∃ addresses, s'.scan = some { addresses }
  payments : s'.payments = s.payments ∨ s'.payments = {}

omit [DecidableEq Address] in
theorem aside_same (hscan : s'.scan = s.scan) (hpayments : s'.payments = s.payments) : Aside s s' :=
  ⟨.inl hscan, .inl hpayments⟩

omit [DecidableEq Address] in
theorem Aside.trans (h : Aside s s') (h' : Aside s' s'') : Aside s s'' := by
  constructor
  · rcases h'.scan with heq | hnew
    · rw [heq]
      exact h.scan
    · exact .inr hnew
  · rcases h'.payments with heq | hnone
    · rw [heq]
      exact h.payments
    · exact .inr hnone

theorem Aside.readOnce (h : Aside s s') (honce : ∀ scan, s.scan = some scan → ReadOnce scan) :
    ∀ scan, s'.scan = some scan → ReadOnce scan := by
  intro scan hscan
  rcases h.scan with heq | hnone | ⟨addresses, hnew⟩
  · exact honce scan (heq ▸ hscan)
  · rw [hnone] at hscan
    cases hscan
  · obtain rfl := Option.some.inj (hnew.symm.trans hscan)
    exact readOnce_start

omit [DecidableEq Address] in
theorem aside_refresh : Aside s (refreshReceiveRequestPayments s) := by
  unfold refreshReceiveRequestPayments
  split
  · exact aside_same rfl rfl
  · split
    · exact ⟨.inl rfl, .inr rfl⟩
    · exact ⟨.inr (.inr ⟨_, rfl⟩), .inl rfl⟩

theorem aside_reload : Aside s (reloadReceiveRequests s) := by
  have hrefresh := @aside_refresh Address { s with
    m_receive_requests := s.stored
    m_receive_request_addresses := s.stored.requestAddresses
    payments := {}
    m_receive_payment_revision := s.m_receive_payment_revision + 1 }
  exact ⟨hrefresh.scan, .inr (hrefresh.payments.elim id id)⟩

theorem aside_save {request : PaymentRequest Address} : Aside s (savePaymentRequest store s request).1 := by
  unfold savePaymentRequest saveNew saveUpdate
  dsimp only
  repeat' split
  all_goals exact aside_same rfl rfl

theorem aside_update {isValid : Address → Bool} {id amount : Int} {label message note : String} :
    Aside s (updatePaymentRequest store s isValid id amount label message note).1 := by
  unfold updatePaymentRequest
  split
  · exact aside_same rfl rfl
  · split
    · exact aside_same rfl rfl
    · exact aside_save

theorem aside_remove {isValid : Address → Bool} {id : Int} : Aside s (removeReceiveRequest store s isValid id).1 := by
  unfold removeReceiveRequest
  split
  · exact aside_same rfl rfl
  · split
    · exact aside_same rfl rfl
    · have hrefresh := @aside_refresh Address { s with
        stored := s.stored.removeByRequestId id
        m_receive_requests := s.m_receive_requests.removeByRequestId id
        m_receive_request_addresses := (s.m_receive_requests.removeByRequestId id).requestAddresses }
      exact ⟨hrefresh.scan, hrefresh.payments⟩

omit [DecidableEq Address] in
theorem aside_syncNotes {label : String} {l : List (QmlRecentRequestEntry Address)} :
    Aside s (l.foldl (syncNote store label) s) := by
  induction l generalizing s with
  | nil => exact aside_same rfl rfl
  | cons entry l ih =>
    refine Aside.trans ?_ ih
    unfold syncNote
    split
    · exact aside_same rfl rfl
    · exact aside_same rfl rfl

theorem aside_label {written : Bool} {address : Address} {label : String} :
    Aside s (setAddressLabel store s written address label).1 := by
  unfold setAddressLabel
  split
  · exact aside_same rfl rfl
  · exact aside_refresh.trans aside_syncNotes

theorem Aside.tableSteps (h : Aside s s') : Relation.ReflTransGen TableStep s s' := .single (.elsewhere h.payments)

theorem tableSteps_update {told : Txid × Bool} :
    Relation.ReflTransGen TableStep s (updateTransaction store s told) := by
  unfold updateTransaction
  dsimp only
  have hinspect {s : System Address} : TableStep s (inspect s {told.1}) := .elsewhere (.inl rfl)
  split
  · exact (Relation.ReflTransGen.single (.remove told.1)).tail hinspect
  · exact (((Relation.ReflTransGen.single (.remove told.1)).tail (.record store told.1 _)).tail
      (.recheck told.1)).tail hinspect

theorem scan_update {told : Txid × Bool} : (updateTransaction store s told).scan = s.scan := by
  rw [touched_update.frame]

theorem tableSteps_deliver : Relation.ReflTransGen TableStep s (deliverNotification store s) := by
  unfold deliverNotification
  split
  · exact .refl
  · dsimp only
    -- While a scan is under way the update is kept for it, beside the tables.
    split
    · exact (tableSteps_update.head (.elsewhere (.inl rfl))).tail (.elsewhere (.inl rfl))
    · exact tableSteps_update.tail (.elsewhere (.inl rfl))

theorem scan_deliver : (deliverNotification store s).scan = s.scan := by
  unfold deliverNotification
  split
  · rfl
  · dsimp only
    rw [scan_update]
    split
    · rfl
    · rfl

theorem scan_updates {l : List (Txid × Bool)} : (l.foldl (updateTransaction store) s).scan = s.scan := by
  induction l generalizing s with
  | nil => rfl
  | cons told l ih => exact ih.trans scan_update

theorem scan_marks {l : List Address} : (l.foldl (markReceiveRequestPayment store) s).scan = s.scan := by
  rw [marked_addresses.frame]

/-- A scan that was applied is over, and another one starts where the requests changed meanwhile. -/
theorem scan_applyScan {scan : Scan Address} :
    (applyScan store s scan).scan = none ∨ ∃ addresses, (applyScan store s scan).scan = some { addresses } := by
  unfold applyScan
  dsimp only
  split
  · rcases (@aside_refresh Address { s with
      scan := none
      m_receive_reconciliation_requested := false
      m_receive_reconciliation_updates := ∅ }).scan with hsame | hnew
    · exact .inl hsame
    · exact hnew
  · refine .inl ?_
    rw [scan_updates, scan_marks]

omit [DecidableEq Address] in
theorem aside_poll : Aside s (pollUnconfirmedReceiveRequestPayments s) := by
  unfold pollUnconfirmedReceiveRequestPayments
  split
  · exact aside_same rfl rfl
  · exact aside_same rfl rfl

theorem scan_applyPoll {poll : Poll} : (applyPoll s poll).scan = s.scan := by
  unfold applyPoll
  dsimp only
  split
  · rfl
  · obtain ⟨revision, hremove, -⟩ := foldl_remove (s := { s with poll := none }) (l := poll.inactive)
    rw [hremove, foldl_confirm]
    rfl

/-- A step of the model is a run of the functions that change the tables, and what it does beside them. -/
theorem tableSteps_of_step {isValid : Address → Bool}
    {Saves : (Int → Bool) → System Address → PaymentRequest Address → Prop} (hstep : Step isValid Saves s s')
    (honce : ∀ scan, s.scan = some scan → ReadOnce scan) :
    Relation.ReflTransGen TableStep s s' ∧ ∀ scan, s'.scan = some scan → ReadOnce scan := by
  cases hstep with
  | save store request => exact ⟨aside_save.tableSteps, aside_save.readOnce honce⟩
  | update store id amount label message note => exact ⟨aside_update.tableSteps, aside_update.readOnce honce⟩
  | remove store id => exact ⟨aside_remove.tableSteps, aside_remove.readOnce honce⟩
  | label store written address label => exact ⟨aside_label.tableSteps, aside_label.readOnce honce⟩
  | reload => exact ⟨aside_reload.tableSteps, aside_reload.readOnce honce⟩
  | notified txid entry => exact ⟨.single (.elsewhere (.inl rfl)), honce⟩
  | unnotified txid tx status tx' status' =>
    refine ⟨.single (.elsewhere (.inl rfl)), fun scan hscan => ?_⟩
    obtain ⟨before, hbefore, rfl⟩ := Option.map_eq_some_iff.mp hscan
    exact (honce before hbefore).change
  | deliver store =>
    exact ⟨tableSteps_deliver, fun scan hscan => honce scan (scan_deliver.symm.trans hscan)⟩
  | list scan l hscan hnone hlists =>
    refine ⟨.single (.elsewhere (.inl rfl)), fun listed hlisted => ?_⟩
    obtain rfl := Option.some.inj hlisted
    exact (honce scan hscan).list hnone hlists
  | read scan hscan =>
    refine ⟨.single (.elsewhere (.inl rfl)), fun read hread => ?_⟩
    obtain rfl := Option.some.inj hread
    exact (honce scan hscan).read
  | applyScan store scan hscan hread =>
    refine ⟨.single ((honce scan hscan).tableStep hread), fun started hstarted => ?_⟩
    rcases @scan_applyScan Address _ s store scan with hnone | ⟨addresses, hnew⟩
    · rw [hnone] at hstarted
      cases hstarted
    · obtain rfl := Option.some.inj (hnew.symm.trans hstarted)
      exact readOnce_start
  | poll => exact ⟨aside_poll.tableSteps, aside_poll.readOnce honce⟩
  | readPoll poll hpoll => exact ⟨.single (.elsewhere (.inl rfl)), honce⟩
  | applyPoll poll hpoll hread =>
    exact ⟨.single (.applyPoll poll), fun scan hscan => honce scan (scan_applyPoll.symm.trans hscan)⟩

/-- Every run of the model is one of the functions that change the tables, from tables without any payment. -/
theorem tableSteps_of_run {isValid : Address → Bool}
    {Saves : (Int → Bool) → System Address → PaymentRequest Address → Prop} {wallet : Wallet Address}
    {stored : ReceiveRequestHistoryModel Address}
    (h : Relation.ReflTransGen (Step isValid Saves) (start wallet stored) s) :
    (start wallet stored).payments = {} ∧ Relation.ReflTransGen TableStep (start wallet stored) s := by
  refine ⟨aside_reload.payments.elim id id, ?_⟩
  suffices hboth : Relation.ReflTransGen TableStep (start wallet stored) s ∧
      ∀ scan, s.scan = some scan → ReadOnce scan from hboth.1
  induction h with
  | refl => exact ⟨.refl, aside_reload.readOnce fun _ hnone => by cases hnone⟩
  | tail _ hstep ih =>
    obtain ⟨hsteps, honce⟩ := tableSteps_of_step hstep ih.2
    exact ⟨ih.1.trans hsteps, honce⟩

/-- So the tables of the model say the same in every state that it reaches. -/
theorem consistent_of_run {isValid : Address → Bool}
    {Saves : (Int → Bool) → System Address → PaymentRequest Address → Prop} {wallet : Wallet Address}
    {stored : ReceiveRequestHistoryModel Address}
    (h : Relation.ReflTransGen (Step isValid Saves) (start wallet stored) s) : s.payments.Consistent := by
  obtain ⟨hstart, hsteps⟩ := tableSteps_of_run h
  exact (wf_of_tableSteps hstart hsteps).consistent

end Model

/-! ## Two transactions to one address -/

namespace OneAddress

def requests : ReceiveRequestHistoryModel Nat := ⟨[⟨1, 7, "", "", "", 30, false⟩], by decide⟩

def empty : System Nat where
  m_receive_requests := requests
  m_receive_request_addresses := {7}
  wallet _ := none
  stored := requests

/-- The first transaction pays the address twice. -/
def tx (amounts : List Int) : WalletTx Nat := ⟨amounts.map (⟨·, true, some 7⟩), false⟩

def recorded : System Nat :=
  let s := recordReceiveRequestPayment (fun _ => true) empty 1 (some (tx [10, 20]), {in_mempool := true})
  recordReceiveRequestPayment (fun _ => true) s 2 (some (tx [5]), {depth_in_main_chain := 3})

/-- The first one goes while the second one still pays the address. -/
theorem tables_consistent_removed :
    (removeReceiveRequestPayment recorded 1).payments.Consistent ∧
      (removeReceiveRequestPayment recorded 1).payments.payments.totals 7 = some 5 :=
  ⟨(tables_consistent rfl
    (.tail (.tail (.tail .refl (.record _ 1 _)) (.record _ 2 _)) (.remove 1))).1, by decide⟩

end OneAddress

end GuiQml.Receive
