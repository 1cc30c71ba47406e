import GuiQml.Receive.Invariant

/-!
# Quiet states are reconciled

Each step keeps the invariant, if a new request is saved where nothing is recorded that should lock it:
during a scan, which then starts again, or at an address that the known transactions do not pay.
-/

namespace GuiQml.Receive

variable {Address : Type} [DecidableEq Address] {s : System Address} {store : Int → Bool}
  {entry existing : QmlRecentRequestEntry Address}

/-! ## Requests -/

theorem Inv.rewrite (h : Inv s) (hin : existing ∈ s.m_receive_requests.m_entries)
    (hid : entry.id = existing.id) (haddress : entry.address = existing.address)
    (hlock : entry.payment_received = existing.payment_received) : Inv (writeEntry s entry) := by
  have hname : (entry.id, entry.address) ∈ s.m_receive_requests.names := by
    rw [hid, haddress]
    exact mem_names_of_mem hin
  have hshown : ∀ e ∈ (s.m_receive_requests.prependOrReplace entry).m_entries,
      e.payment_received = false →
      ∃ old ∈ s.m_receive_requests.m_entries, old.payment_received = false ∧ old.address = e.address := by
    intro e he hunlocked
    rcases ReceiveRequestHistoryModel.mem_prependOrReplace.mp he with rfl | ⟨he, -⟩
    · exact ⟨existing, hin, hlock ▸ hunlocked, haddress.symm⟩
    · exact ⟨e, he, hunlocked, rfl⟩
  exact {
    agree := h.agree.write
    addresses := h.addresses.trans (requestAddresses_of_names (names_prependOrReplace hname)).symm
    queue := h.queue
    deleted := h.deleted
    cleared := h.cleared
    polled := h.polled
    idle := fun hscan =>
      { sound := (h.idle hscan).sound
        locked := (h.idle hscan).locked.mono hshown fun _ => id }
    scanning := fun scan hscan hrequested =>
      let hold := h.scanning scan hscan hrequested
      { addresses := hold.addresses
        unlisted := hold.unlisted
        listed := fun l hl =>
          let hlisted := hold.listed l hl
          { hlisted with locked := hlisted.locked.mono hshown fun _ => id } }
    polling := h.polling }

theorem requestAddresses_new (hnew : ∀ e ∈ s.m_receive_requests.m_entries, e.id ≠ entry.id) :
    (s.m_receive_requests.prependOrReplace entry).requestAddresses =
      insert entry.address s.m_receive_requests.requestAddresses := by
  ext address
  simp only [Finset.mem_insert, ReceiveRequestHistoryModel.mem_requestAddresses,
    ReceiveRequestHistoryModel.mem_prependOrReplace]
  constructor
  · rintro ⟨e, rfl | ⟨he, -⟩, rfl⟩
    · exact .inl rfl
    · exact .inr ⟨e, he, rfl⟩
  · rintro (rfl | ⟨e, he, rfl⟩)
    · exact ⟨entry, .inl rfl, rfl⟩
    · exact ⟨e, .inr ⟨he, hnew e he⟩, rfl⟩

/-- An address that nothing pays yet may become one of a request. -/
theorem Sound.insert {wallet : Wallet Address} {A : Finset Address} {p : ReceivePayments Address}
    {U : Finset Txid} {N : Set Txid} {address : Address} (h : Sound wallet A p U N)
    (hunpaid : ¬Pays wallet N address) : Sound wallet (insert address A) p U N := by
  have hreceived : ∀ txid ∉ N, ∀ w, wallet txid = some w →
      receivedOf (Insert.insert address A) w.1 = receivedOf A w.1 := by
    intro txid hnot w hw
    rw [receivedOf, receivedOf, requestOutputs_insert fun hown => hunpaid ⟨txid, hnot, w, hw, hown⟩]
  refine ⟨h.wf, fun txid hnot r hr => ?_, fun txid hnot huninspected => ?_⟩
  · obtain ⟨w, hw, hnonempty, heq⟩ := h.recorded txid hnot r hr
    refine ⟨w, hw, ?_⟩
    rw [hreceived txid hnot w hw]
    exact ⟨hnonempty, heq⟩
  · rw [h.exact txid hnot huninspected]
    unfold truth
    cases hw : wallet txid with
    | none => rfl
    | some w =>
      rw [Option.bind_some, Option.bind_some, record_scan, record_scan, hreceived txid hnot w hw]

/-- A new request that the wallet stores has an id of its own, and a known payment to it is still to be scanned. -/
def SavesUnpaid (store : Int → Bool) (s : System Address) (request : PaymentRequest Address) : Prop :=
  request.id = none → moneyRange request.amount = true → store (nextPaymentRequestId s) = true →
    (∀ e ∈ s.m_receive_requests.m_entries, e.id ≠ nextPaymentRequestId s) ∧
      (s.scan = none → ¬Pays s.wallet (queued s) request.address)

theorem Inv.saveNew {request : PaymentRequest Address} (h : Inv s)
    (hsaves : moneyRange request.amount = true → store (nextPaymentRequestId s) = true →
      (∀ e ∈ s.m_receive_requests.m_entries, e.id ≠ nextPaymentRequestId s) ∧
        (s.scan = none → ¬Pays s.wallet (queued s) request.address)) :
    Inv (saveNew store s request).1 := by
  unfold GuiQml.Receive.saveNew
  dsimp only
  split
  · exact h
  rename_i hstored
  simp only [Bool.or_eq_true, Bool.not_eq_true', not_or, Bool.not_eq_false] at hstored
  obtain ⟨hnew, hunpaid⟩ := hsaves hstored.1 hstored.2
  exact {
    agree := h.agree.write
    addresses := by
      have hentry : ∀ e ∈ s.m_receive_requests.m_entries,
        e.id ≠ (requestEntry request (nextPaymentRequestId s) false).id := hnew
      exact (congrArg _ h.addresses).trans (requestAddresses_new hentry).symm
    queue := h.queue
    deleted := h.deleted
    cleared := h.cleared
    polled := h.polled
    idle := fun hscan =>
      { sound := (h.idle hscan).sound.insert (hunpaid hscan)
        locked := by
          intro e he hlock
          rcases ReceiveRequestHistoryModel.mem_prependOrReplace.mp he with rfl | ⟨he, -⟩
          · exact hunpaid hscan
          · exact (h.idle hscan).locked e he hlock }
    scanning := fun scan hscan hrequested => by
      have hsome : s.scan.isSome = true := by
        rw [show s.scan = some scan from hscan]
        rfl
      simp [hsome] at hrequested
    polling := h.polling }

theorem Inv.saveUpdate {request : PaymentRequest Address} {id : Int} (h : Inv s) :
    Inv (saveUpdate store s request id).1 := by
  unfold GuiQml.Receive.saveUpdate
  split
  · exact h
  split
  · exact h
  rename_i existing hexisting
  split
  · exact h
  rename_i hcond
  obtain ⟨hin, hid⟩ := ReceiveRequestHistoryModel.entryById_eq_some.mp hexisting
  have haddress : request.address = existing.address := by
    simp only [mayReplace, Bool.or_eq_true, not_or, Bool.not_eq_true, Bool.not_eq_false',
      Bool.and_eq_true, decide_eq_true_eq] at hcond
    exact hcond.1.2.1
  have hsame : insert request.address s.m_receive_request_addresses = s.m_receive_request_addresses := by
    rw [h.addresses, haddress]
    exact Finset.insert_eq_of_mem (ReceiveRequestHistoryModel.mem_requestAddresses.mpr ⟨existing, hin, rfl⟩)
  dsimp only
  rw [hsame]
  have hwrite : Inv (writeEntry s (requestEntry request id existing.payment_received)) :=
    h.rewrite hin hid.symm haddress rfl
  exact hwrite

theorem Inv.savePaymentRequest {request : PaymentRequest Address} (h : Inv s)
    (hsaves : SavesUnpaid store s request) : Inv (savePaymentRequest store s request).1 := by
  unfold GuiQml.Receive.savePaymentRequest
  split
  · rename_i hid
    exact h.saveNew (hsaves hid)
  · exact h.saveUpdate

theorem Inv.updatePaymentRequest {isValid : Address → Bool} {id amount : Int}
    {label message note : String} (h : Inv s) :
    Inv (updatePaymentRequest store s isValid id amount label message note).1 := by
  unfold GuiQml.Receive.updatePaymentRequest
  split
  · exact h
  split
  · exact h
  · exact h.savePaymentRequest fun hnone => by cases hnone

theorem Inv.removeReceiveRequest {isValid : Address → Bool} {id : Int} (h : Inv s) :
    Inv (removeReceiveRequest store s isValid id).1 := by
  unfold GuiQml.Receive.removeReceiveRequest
  split
  · exact h
  split
  · exact h
  · exact Base.refresh ⟨h.agree.remove, rfl, h.queue, h.deleted, h.cleared, h.polled⟩

theorem Inv.syncNote {label : String} (h : Inv s) (hin : entry ∈ s.m_receive_requests.m_entries) :
    Inv (syncNote store label s entry) := by
  unfold GuiQml.Receive.syncNote
  split
  · exact h
  · exact h.rewrite hin rfl rfl rfl

theorem Inv.syncNotes {label : String} {l : List (QmlRecentRequestEntry Address)} (h : Inv s)
    (hl : (l.map (·.id)).Nodup) (hin : ∀ entry ∈ l, entry ∈ s.m_receive_requests.m_entries) :
    Inv (l.foldl (GuiQml.Receive.syncNote store label) s) := by
  induction l generalizing s with
  | nil => exact h
  | cons entry l ih =>
    rw [List.map_cons, List.nodup_cons] at hl
    refine ih (h.syncNote (hin entry List.mem_cons_self)) hl.2 fun other hother => ?_
    have hold := hin other (List.mem_cons_of_mem _ hother)
    unfold GuiQml.Receive.syncNote
    split
    · exact hold
    · refine ReceiveRequestHistoryModel.mem_prependOrReplace.mpr (.inr ⟨hold, fun hid => hl.1 ?_⟩)
      exact hid ▸ List.mem_map_of_mem hother

theorem Inv.setAddressLabel {written : Bool} {address : Address} {label : String} (h : Inv s) :
    Inv (setAddressLabel store s written address label).1 := by
  unfold GuiQml.Receive.setAddressLabel
  split
  · exact h
  · refine h.toBase.refresh.syncNotes ?_ fun entry hentry =>
      (ReceiveRequestHistoryModel.mem_entriesForAddress.mp hentry).1
    exact ReceiveRequestHistoryModel.nodup _ |>.sublist (List.filter_sublist.map _)

theorem Base.reload (h : Base s) : Inv (reloadReceiveRequests s) :=
  Base.refresh ⟨.refl, rfl, h.queue, h.deleted, h.cleared,
    fun poll hpoll => Nat.le_succ_of_le (h.polled poll hpoll)⟩

/-! ## Notifications -/

theorem revision_update {told : Txid × Bool} :
    s.m_receive_payment_revision < (updateTransaction store s told).m_receive_payment_revision := by
  unfold updateTransaction
  dsimp only
  split
  · exact Nat.lt_succ_self _
  · refine Nat.lt_of_lt_of_le (Nat.lt_succ_self _)
      (Touched.revision (s := removeReceiveRequestPayment s told.1) ?_)
    exact (touched_record.trans touched_recheck).trans touched_inspect

theorem Inv.touched {s' : System Address} {rest : List (Txid × Bool)}
    {updates : Std.ExtTreeMap Txid Bool} (h : Inv s)
    (htouched : Touched { s with m_receive_reconciliation_updates := updates } s')
    (hrevision : s.m_receive_payment_revision < s'.m_receive_payment_revision)
    (hsuffix : ∃ done, s.notifications = done ++ rest)
    (hdeleted : ∀ txid, updates[txid]? = some true → txid ∈ rest.map (·.1) ∨ s.wallet txid = none)
    (hcleared : s.scan = none → updates = ∅)
    (hidle : s.scan = none → Idle { s' with notifications := rest })
    (hawaited : s.scan ≠ none → ∀ txid, txid ∈ awaited s ↔ txid ∈ rest.map (·.1) ∨ txid ∈ updates) :
    Inv { s' with notifications := rest } := by
  obtain ⟨hframe, hnames, hagree, hunlocked, -⟩ := htouched
  generalize s'.stored = stored', s'.m_receive_requests = shown', s'.payments = payments',
    s'.m_receive_payment_revision = revision', s'.uninspected = uninspected' at *
  subst hframe
  obtain ⟨done, hdone⟩ := hsuffix
  exact {
    agree := hagree h.agree
    addresses := h.addresses.trans (requestAddresses_of_names hnames).symm
    queue := by
      intro pre txid deleted post hsplit hlast
      refine h.queue (done ++ pre) txid deleted post ?_ hlast
      rw [hdone, List.append_assoc]
      exact congrArg _ hsplit
    deleted := hdeleted
    cleared := hcleared
    polled := fun poll hpoll => (h.polled poll hpoll).trans (Nat.le_of_lt hrevision)
    idle := hidle
    scanning := fun scan hscan hrequested => by
      have hold := h.scanning scan hscan hrequested
      refine ⟨hold.addresses, hold.unlisted, fun l hl => ?_⟩
      have hsome : s.scan ≠ none := fun hnone => by cases hnone.symm.trans hscan
      have hlisted := hold.listed l hl
      rw [Set.ext (hawaited hsome)] at hlisted
      exact { hlisted with
        locked := hlisted.locked.mono (fun e he hlock => ⟨e, hunlocked e he hlock, hlock, rfl⟩)
          fun _ => id }
    polling := fun poll hpoll hcurrent _ => by
      have := h.polled poll hpoll
      simp only at hcurrent
      omega }

theorem Inv.deliver (h : Inv s) : Inv (deliverNotification store s) := by
  unfold deliverNotification
  split
  · exact h
  rename_i txid deleted rest hnotifications
  have hqueued : ∀ other, other ∈ queued s ↔ other = txid ∨ other ∈ rest.map (·.1) := by
    intro other
    rw [queued, hnotifications]
    exact List.mem_cons
  have htold : deleted = true → txid ∈ rest.map (·.1) ∨ s.wallet txid = none := by
    intro hdeleted
    by_cases hin : txid ∈ rest.map (·.1)
    · exact .inl hin
    · have := h.queue [] txid deleted rest hnotifications hin
      exact .inr (Option.isNone_iff_eq_none.mp (this ▸ hdeleted))
  dsimp only
  by_cases hscan : s.scan = none
  · have hnot : ¬s.scan.isSome = true := by simp [hscan]
    rw [if_neg hnot]
    refine h.touched touched_update revision_update ⟨[(txid, deleted)], hnotifications⟩
      (fun other hflag => ?_) (fun hnone => h.cleared hnone) (fun _ => ?_) fun hsome => absurd hscan hsome
    · rw [h.cleared hscan, Std.ExtTreeMap.getElem?_empty] at hflag
      cases hflag
    · have hN : queued s ⊆ insert txid {other | other ∈ rest.map (·.1)} := fun other => (hqueued other).mp
      have htouched : Touched s (updateTransaction store s (txid, deleted)) := touched_update
      have hwallet : (updateTransaction store s (txid, deleted)).wallet = s.wallet := by
        rw [htouched.frame]
      have hsound : SoundState s ∅ (queued s) := (h.idle hscan).sound.mono (by simp) fun _ => id
      have hupdate : SoundState (updateTransaction store s (txid, deleted)) ∅ _ := hsound.update htold hN
      have hlocked : Locked (updateTransaction store s (txid, deleted)).m_receive_requests
        (Pays s.wallet _) := (h.idle hscan).locked.update htold hN
      refine ⟨hupdate.mono (by simp) fun _ => id, ?_⟩
      change Locked _ (Pays (updateTransaction store s (txid, deleted)).wallet _)
      rw [hwallet]
      exact hlocked
  · obtain ⟨scan, hsome⟩ := Option.ne_none_iff_exists'.mp hscan
    rw [if_pos (by simp [hsome])]
    refine h.touched touched_update (revision_update (s := { s with
      m_receive_reconciliation_updates := s.m_receive_reconciliation_updates.insert txid deleted }))
      ⟨[(txid, deleted)], hnotifications⟩ (fun other hflag => ?_) (fun hnone => absurd hnone hscan)
      (fun hnone => absurd hnone hscan) fun _ other => ?_
    · rw [Std.ExtTreeMap.getElem?_insert] at hflag
      split at hflag
      · rename_i hcompare
        obtain rfl := Nat.compare_eq_eq.mp hcompare
        exact htold (Option.some.inj hflag)
      · rename_i hcompare
        refine (h.deleted other hflag).imp_left fun hin => ((hqueued other).mp hin).resolve_left ?_
        rintro rfl
        exact hcompare (Nat.compare_eq_eq.mpr rfl)
    · rw [awaited, Set.mem_union, hqueued, Std.ExtTreeMap.mem_insert, Nat.compare_eq_eq]
      rw [Set.mem_ofPred_eq, eq_comm]
      tauto

/-! ## Scans -/

theorem Inv.list {scan : Scan Address} {l : List (Txid × WalletTx Address)} (h : Inv s)
    (hscan : s.scan = some scan) (hunlisted : scan.remaining = none) (hlists : Lists s.wallet l) :
    Inv { s with scan := some { scan with remaining := some l } } := by
  have hnone : ∀ txid, txid ∉ l.map (·.1) → s.wallet txid = none := by
    intro txid hnot
    refine Option.eq_none_iff_forall_ne_some.mpr fun w hw => hnot ?_
    exact List.mem_map_of_mem ((hlists.2 txid w.1).mpr ⟨w.2, hw⟩)
  exact {
    toBase := ⟨h.agree, h.addresses, h.queue, h.deleted, (fun hnone => by cases hnone), h.polled⟩
    idle := fun hnone => by cases hnone
    scanning := by
      intro _ heq hrequested
      obtain rfl := Option.some.inj heq
      have hold := h.scanning scan hscan hrequested
      obtain ⟨hresult, hstale⟩ := hold.unlisted hunlisted
      refine ⟨hold.addresses, (fun hnone => by cases hnone), fun l' hl' => ?_⟩
      obtain rfl := Option.some.inj hl'
      refine ⟨hlists.1, fun txid tx hmem _ => ?_, fun txid _ => ?_, ⟨?_, ?_, ?_⟩, ?_⟩
      · obtain ⟨status, hw⟩ := (hlists.2 txid tx).mp hmem
        exact ⟨_, hw, rfl, fun _ => rfl⟩
      · change scan.result.payments.record txid = none
        rw [hresult]
        rfl
      · change scan.result.payments.WF
        rw [hresult]
        exact .empty
      · intro txid _ r hr
        change scan.result.payments.record txid = some r at hr
        rw [hresult] at hr
        cases hr
      · intro txid hnot _
        change scan.result.payments.record txid = _
        rw [hresult, truth, hnone txid fun hin => hnot (.inr hin)]
        rfl
      · rintro e _ _ ⟨⟨txid, hnot, w, hw, -⟩, -⟩
        rw [hnone txid fun hin => hnot (.inr hin)] at hw
        cases hw
    polling := fun _ _ _ hnone => by cases hnone }

theorem Listed.read {wallet : Wallet Address} {shown : ReceiveRequestHistoryModel Address}
    {scan : Scan Address} {txid : Txid} {tx : WalletTx Address} {rest : List (Txid × WalletTx Address)}
    {N : Set Txid} (h : Listed wallet shown scan ((txid, tx) :: rest) N)
    (hshown : ∀ e ∈ shown.m_entries, e.address ∈ scan.addresses)
    (hremaining : scan.remaining = some ((txid, tx) :: rest)) :
    Listed wallet shown (scan.read wallet) rest N := by
  obtain ⟨hnodup, hsnapshot, hunread, hsound, hlocked⟩ := h
  rw [List.map_cons, List.nodup_cons] at hnodup
  have hfirst := hunread txid List.mem_cons_self
  have hlater : ∀ other, other ≠ txid → other ∉ N ∪ {txid | txid ∈ rest.map (·.1)} →
      other ∉ N ∪ {other | other ∈ ((txid, tx) :: rest).map (·.1)} := by
    rintro other hne hnot (hin | hin)
    · exact hnot (.inl hin)
    · rcases List.mem_cons.mp hin with heq | hin
      · exact hne heq
      · exact hnot (.inr hin)
  unfold Scan.read
  rw [hremaining]
  refine ⟨hnodup.2, fun other w hmem => hsnapshot other w (List.mem_cons_of_mem _ hmem), ?_, ⟨?_, ?_, ?_⟩, ?_⟩
  · intro other hother
    have hne : other ≠ txid := fun heq => hnodup.1 (heq ▸ hother)
    change (scan.result.payments.add _ _).record other = none
    rw [ReceivePayments.record_add hfirst hsound.wf, if_neg hne]
    exact hunread other (List.mem_cons_of_mem _ hother)
  · exact hsound.wf.add hfirst proper_scan
  · intro other hnot r hr
    change (scan.result.payments.add _ _).record other = some r at hr
    rw [ReceivePayments.record_add hfirst hsound.wf] at hr
    split at hr
    · rename_i heq
      subst heq
      obtain ⟨w, hw, hvout, -⟩ := hsnapshot other tx List.mem_cons_self fun hin => hnot (.inl hin)
      rw [record_scan] at hr
      split at hr
      · cases hr
      · rename_i hcond
        rw [Bool.or_eq_true, not_or, Bool.not_eq_true] at hcond
        refine ⟨w, hw, ?_⟩
        change (receivedOf scan.addresses w.1).isEmpty = false ∧ r.1 = receivedOf scan.addresses w.1
        rw [receivedOf_congr hvout]
        exact ⟨hcond.1, (Option.some.inj hr) ▸ rfl⟩
    · rename_i hne
      exact hsound.recorded other (hlater other hne hnot) r hr
  · intro other hnot hstale
    change (scan.result.payments.add _ _).record other = _
    rw [ReceivePayments.record_add hfirst hsound.wf]
    split
    · rename_i heq
      subst heq
      obtain ⟨w, hw, hvout, hreplaced⟩ := hsnapshot other tx List.mem_cons_self fun hin => hnot (.inl hin)
      rw [getWalletTxDetails, truth, hw, Option.bind_some, record_scan, record_scan,
        receivedOf_congr hvout, hreplaced hstale]
    · rename_i hne
      exact hsound.exact other (hlater other hne hnot) hstale
  · rintro e he hlock ⟨⟨other, hnot, w, hw, hown⟩, hobserved⟩
    have hobserved' : e.address ∉ scan.result.observed_addresses ∧ e.address ∉
        (scanReceiveRequestTransaction tx (getWalletTxDetails wallet txid).2 scan.addresses).observed := by
      rw [← not_or]
      exact fun hin => hobserved (List.mem_append.mpr hin)
    by_cases hsame : other = txid
    · subst hsame
      obtain ⟨w', hw', hvout, -⟩ := hsnapshot other tx List.mem_cons_self fun hin => hnot (.inl hin)
      obtain rfl := Option.some.inj (hw.symm.trans hw')
      refine hobserved'.2 (observed_scan.mpr ⟨?_, hshown e he⟩)
      rwa [ownAddresses, ← hvout]
    · exact hlocked e he hlock ⟨⟨other, hlater other hsame hnot, w, hw, hown⟩, hobserved'.1⟩

theorem Inv.read {scan : Scan Address} (h : Inv s) (hscan : s.scan = some scan) :
    Inv { s with scan := some (scan.read s.wallet) } where
  toBase := ⟨h.agree, h.addresses, h.queue, h.deleted, (fun hnone => by cases hnone), h.polled⟩
  idle hnone := by cases hnone
  scanning := by
    intro _ heq hrequested
    obtain rfl := Option.some.inj heq
    have hold := h.scanning scan hscan hrequested
    have hshown : ∀ e ∈ s.m_receive_requests.m_entries, e.address ∈ scan.addresses := by
      intro e he
      rw [hold.addresses, h.addresses]
      exact ReceiveRequestHistoryModel.mem_requestAddresses.mpr ⟨e, he, rfl⟩
    cases hremaining : scan.remaining with
    | none =>
      have hsame : scan.read s.wallet = scan := by rw [Scan.read, hremaining]
      rw [hsame]
      exact ⟨hold.addresses, hold.unlisted, hold.listed⟩
    | some l =>
      cases l with
      | nil =>
        have hsame : scan.read s.wallet = scan := by rw [Scan.read, hremaining]
        rw [hsame]
        exact ⟨hold.addresses, hold.unlisted, hold.listed⟩
      | cons w rest =>
        have hread : (scan.read s.wallet).addresses = scan.addresses ∧
            (scan.read s.wallet).remaining = some rest := by
          rw [Scan.read, hremaining]
          exact ⟨rfl, rfl⟩
        refine ⟨hread.1.trans hold.addresses, fun hnone => ?_, fun l hl => ?_⟩
        · cases hread.2.symm.trans hnone
        · obtain rfl := Option.some.inj (hread.2.symm.trans hl)
          exact (hold.listed _ hremaining).read hshown hremaining
  polling _ _ _ hnone := by cases hnone

theorem Inv.applyScan {scan : Scan Address} (h : Inv s) (hscan : s.scan = some scan)
    (hremaining : scan.remaining = some []) : Inv (applyScan store s scan) := by
  unfold GuiQml.Receive.applyScan
  dsimp only
  split
  · refine Base.refresh ⟨h.agree, h.addresses, h.queue, fun txid hflag => ?_, fun _ => rfl, h.polled⟩
    rw [Std.ExtTreeMap.getElem?_empty] at hflag
    cases hflag
  rename_i hrequested
  have hold := h.scanning scan hscan (Bool.not_eq_true _ ▸ hrequested)
  have hlisted := hold.listed [] hremaining
  have hempty : awaited s ∪ {txid | txid ∈ ([] : List (Txid × WalletTx Address)).map (·.1)} = awaited s := by
    simp
  -- The scan is installed, then what it observed locks, then the updates are replayed.
  generalize hs₁ : ({ s with
    scan := none
    payments := scan.result.payments
    m_receive_payment_revision := s.m_receive_payment_revision + 1
    uninspected := scan.stale } : System Address) = s₁
  have hmarked : Marked _ s₁ (scan.result.observed_addresses.foldl (markReceiveRequestPayment store) s₁) :=
    marked_addresses
  generalize scan.result.observed_addresses.foldl (markReceiveRequestPayment store) s₁ = s₂ at hmarked ⊢
  have hwallet : s₂.wallet = s.wallet := by rw [hmarked.frame, ← hs₁]
  have hupdates₂ : s₂.m_receive_reconciliation_updates = s.m_receive_reconciliation_updates := by
    rw [hmarked.frame, ← hs₁]
  rw [hupdates₂]
  have hawaited : awaited s =
      queued s ∪ {txid | txid ∈ s.m_receive_reconciliation_updates.toList.map (·.1)} := by
    ext txid
    rw [awaited, Set.mem_union, Set.mem_union, Set.mem_ofPred_eq, Set.mem_ofPred_eq,
      Std.ExtTreeMap.map_fst_toList_eq_keys, Std.ExtTreeMap.mem_keys]
  have hsound : SoundState s₂ ∅ (awaited s) := by
    have := hlisted.sound
    rw [hempty, hold.addresses] at this
    unfold SoundState
    rw [hmarked.frame, ← hs₁]
    exact this.mono (by simp) fun _ => id
  have hlocked : Locked s₂.m_receive_requests (Pays s₂.wallet (awaited s)) := by
    intro e he hlock hpays
    obtain ⟨hin, hobserved⟩ := hmarked.unlocked e he hlock
    rw [← hs₁] at hin
    exact hlisted.locked e hin hlock ⟨by rwa [hempty, ← hwallet], hobserved⟩
  rw [hawaited] at hsound hlocked
  generalize hs₃ : s.m_receive_reconciliation_updates.toList.foldl (updateTransaction store) s₂ = s₃
  obtain ⟨hsound', hlocked', htouched⟩ := hs₃ ▸ hsound.replay hlocked fun told htold hflag => by
    rw [hwallet]
    refine h.deleted told.1 (Std.ExtTreeMap.mem_toList_iff_getElem?_eq_some.mp ?_)
    rwa [← hflag]
  obtain ⟨hframe, hnames, hagree, -, hrevision⟩ := hmarked.touched.trans htouched
  have hwallet' : s₃.wallet = s.wallet := by rw [hframe, ← hs₁]
  have hqueue : s₃.notifications = s.notifications := by rw [hframe, ← hs₁]
  rw [hwallet, ← hwallet'] at hlocked'
  subst hs₁
  have hpoll : s₃.poll = s.poll := by rw [hframe]
  exact {
    agree := hagree h.agree
    addresses := by
      change s₃.m_receive_request_addresses = _
      rw [hframe]
      exact h.addresses.trans (requestAddresses_of_names hnames).symm
    queue := by
      change ∀ pre txid deleted post, s₃.notifications = _ → _ → deleted = (s₃.wallet txid).isNone
      rw [hqueue, hwallet']
      exact h.queue
    deleted := fun txid hflag => by
      rw [Std.ExtTreeMap.getElem?_empty] at hflag
      cases hflag
    cleared := fun _ => rfl
    polled := fun poll hsome => by
      exact ((h.polled poll (hpoll ▸ hsome)).trans (Nat.le_succ _)).trans hrevision
    idle := fun _ => by
      have hqueued : queued s = queued s₃ := by rw [queued, queued, hqueue]
      rw [hqueued] at hsound' hlocked'
      exact ⟨hsound'.mono (by simp) fun _ => id, hlocked'⟩
    scanning := fun _ hsome _ => by
      change s₃.scan = _ at hsome
      rw [hframe] at hsome
      cases hsome
    polling := fun poll hsome hcurrent _ => by
      have := h.polled poll (hpoll ▸ hsome)
      simp only at hcurrent hrevision
      omega }

/-! ## Polls -/

theorem Inv.startPoll (h : Inv s) : Inv (pollUnconfirmedReceiveRequestPayments s) := by
  unfold pollUnconfirmedReceiveRequestPayments
  split
  · exact h
  exact {
    toBase := ⟨h.agree, h.addresses, h.queue, h.deleted, h.cleared, fun poll hpoll => by
      obtain rfl := Option.some.inj hpoll
      exact le_refl _⟩
    idle := fun hscan => ⟨(h.idle hscan).sound, (h.idle hscan).locked⟩
    scanning := fun scan hscan hrequested =>
      ⟨(h.scanning scan hscan hrequested).addresses, (h.scanning scan hscan hrequested).unlisted,
        (h.scanning scan hscan hrequested).listed⟩
    polling := fun poll hpoll _ _ => by
      obtain rfl := Option.some.inj hpoll
      exact {
        unread := fun txid hin => ⟨(Finset.mem_sort _).mp hin, List.not_mem_nil, List.not_mem_nil⟩
        nodup := Finset.sort_nodup _ _
        fresh := fun txid hin => absurd hin (Finset.notMem_empty txid)
        changed := fun txid hin _ => absurd hin (not_or.mpr ⟨List.not_mem_nil, List.not_mem_nil⟩)
        inactive := fun txid hin _ _ => absurd hin List.not_mem_nil
        active := fun txid hin _ _ => absurd hin (Finset.notMem_empty txid) } }

omit [DecidableEq Address] in
theorem inactiveNow_of_none {wallet : Wallet Address} {txid : Txid}
    (h : (getWalletTxDetails wallet txid).1.isNone = true) : inactiveNow wallet txid = true := by
  unfold getWalletTxDetails at h
  unfold inactiveNow getWalletTxDetails
  cases hw : wallet txid with
  | none => rfl
  | some w =>
    rw [hw] at h
    cases h

omit [DecidableEq Address] in
theorem Poll.read_cons (wallet : Wallet Address) {poll : Poll} {txid : Txid} {rest : List Txid}
    (h : poll.remaining = txid :: rest) :
    (poll.read wallet).remaining = rest ∧ (poll.read wallet).fresh = insert txid poll.fresh ∧
      (∀ other, other ∈ (poll.read wallet).inactive ↔ other ∈ poll.inactive ∨
        other = txid ∧ inactiveNow wallet txid = true) ∧
      ∀ other, other ∈ (poll.read wallet).confirmed ↔ other ∈ poll.confirmed ∨
        other = txid ∧ inactiveNow wallet txid = false ∧
          0 < (getWalletTxDetails wallet txid).2.depth_in_main_chain := by
  unfold Poll.read
  rw [h]
  dsimp only
  split
  · rename_i hcond
    have hinactive : inactiveNow wallet txid = true := (Bool.or_eq_true _ _ ▸ hcond).elim inactiveNow_of_none id
    simp [hinactive]
  rename_i hcond
  rw [Bool.or_eq_true, not_or, Bool.not_eq_true, Bool.not_eq_true] at hcond
  split
  · rename_i hdeep
    simp [hcond.2, hdeep]
  · rename_i hdeep
    simp [hcond.2, hdeep]

omit [DecidableEq Address] in
theorem Polling.read {wallet : Wallet Address} {unconfirmed uninspected : Finset Txid} {poll : Poll}
    {N : Set Txid} (h : Polling wallet unconfirmed uninspected poll N) :
    Polling wallet unconfirmed uninspected (poll.read wallet) N := by
  cases hremaining : poll.remaining with
  | nil =>
    have hsame : poll.read wallet = poll := by rw [Poll.read, hremaining]
    rwa [hsame]
  | cons txid rest =>
    obtain ⟨hrest, hfresh, hinactive, hconfirmed⟩ := Poll.read_cons wallet hremaining
    have hfirst := h.unread txid (hremaining ▸ List.mem_cons_self)
    have hnodup := h.nodup
    rw [hremaining, List.nodup_cons] at hnodup
    have hold : ∀ other, other ∈ poll.inactive ∨ other ∈ poll.confirmed → other ≠ txid := by
      rintro other (hin | hin) rfl
      · exact hfirst.2.1 hin
      · exact hfirst.2.2 hin
    refine ⟨fun other hother => ?_, hrest ▸ hnodup.2, fun other hother => ?_, fun other hother hstale => ?_,
      fun other hother hin hnot => ?_, fun other hin hother hnot => ?_⟩
    · rw [hrest] at hother
      have hne : other ≠ txid := fun heq => hnodup.1 (heq ▸ hother)
      obtain ⟨hunconfirmed, hi, hc⟩ := h.unread other (hremaining ▸ List.mem_cons_of_mem _ hother)
      rw [hinactive, hconfirmed]
      exact ⟨hunconfirmed, fun hin => hin.elim hi fun hsame => hne hsame.1,
        fun hin => hin.elim hc fun hsame => hne hsame.1⟩
    · rw [hfresh] at hother
      rcases Finset.mem_insert.mp hother with rfl | hother
      · exact hfirst.1
      · exact h.fresh other hother
    · rw [hfresh, Finset.mem_insert, not_or] at hstale
      rw [hinactive, hconfirmed] at hother
      refine h.changed other ?_ hstale.2
      exact hother.imp (fun hin => hin.resolve_right fun hsame => hstale.1 hsame.1)
        fun hin => hin.resolve_right fun hsame => hstale.1 hsame.1
    · rw [hinactive] at hother
      rw [hfresh] at hin
      rcases hother with hother | ⟨rfl, hgone⟩
      · exact h.inactive other hother ((Finset.mem_insert.mp hin).resolve_left (hold other (.inl hother))) hnot
      · exact hgone
    · rw [hinactive, not_or, not_and] at hother
      rw [hfresh] at hin
      rw [hconfirmed]
      rcases Finset.mem_insert.mp hin with rfl | hin
      · have hactive := Bool.not_eq_true _ ▸ hother.2 rfl
        simp [hactive, hfirst.2.2]
      · obtain ⟨hactive, hiff⟩ := h.active other hin hother.1 hnot
        refine ⟨hactive, ?_, fun hdeep => .inl (hiff.mpr hdeep)⟩
        rintro (hc | ⟨rfl, -, hdeep⟩)
        · exact hiff.mp hc
        · exact hdeep

theorem Inv.readPoll {poll : Poll} (h : Inv s) (hpoll : s.poll = some poll) :
    Inv { s with poll := some (poll.read s.wallet) } := by
  have hrevision : (poll.read s.wallet).revision = poll.revision := by
    unfold Poll.read
    split
    · rfl
    · dsimp only
      split
      · rfl
      · split <;> rfl
  exact {
    toBase := ⟨h.agree, h.addresses, h.queue, h.deleted, h.cleared, fun other hother => by
      obtain rfl := Option.some.inj hother
      exact hrevision ▸ h.polled poll hpoll⟩
    idle := fun hscan => ⟨(h.idle hscan).sound, (h.idle hscan).locked⟩
    scanning := fun scan hscan hrequested =>
      ⟨(h.scanning scan hscan hrequested).addresses, (h.scanning scan hscan hrequested).unlisted,
        (h.scanning scan hscan hrequested).listed⟩
    polling := fun other hother hcurrent hscan => by
      obtain rfl := Option.some.inj hother
      exact (h.polling poll hpoll (hrevision ▸ hcurrent) hscan).read }

section Apply

variable {p : ReceivePayments Address} {l : List Txid} {txid : Txid}

theorem wf_confirmed (h : p.WF) : (l.foldl ReceivePayments.confirm p).WF := by
  induction l generalizing p with
  | nil => exact h
  | cons other l ih => exact ih h.confirm

omit [DecidableEq Address] in
theorem record_confirmed : (l.foldl ReceivePayments.confirm p).record txid =
    if txid ∈ l then (p.record txid).map fun r => (r.1, false) else p.record txid := by
  induction l generalizing p with
  | nil => rfl
  | cons other l ih =>
    rw [List.foldl_cons, ih, ReceivePayments.record_confirm]
    by_cases hsame : txid = other
    · subst hsame
      cases p.record txid <;> simp
    · simp [hsame]

theorem wf_removed (h : p.WF) : (l.foldl ReceivePayments.remove p).WF := by
  induction l generalizing p with
  | nil => exact h
  | cons other l ih => exact ih h.remove

theorem record_removed : (l.foldl ReceivePayments.remove p).record txid =
    if txid ∈ l then none else p.record txid := by
  induction l generalizing p with
  | nil => rfl
  | cons other l ih =>
    rw [List.foldl_cons, ih, ReceivePayments.record_remove]
    by_cases hsame : txid = other
    · simp [hsame]
    · simp [hsame]

theorem foldl_remove : ∃ revision, l.foldl removeReceiveRequestPayment s =
    { s with
      payments := l.foldl ReceivePayments.remove s.payments
      m_receive_payment_revision := revision } ∧ s.m_receive_payment_revision ≤ revision := by
  induction l generalizing s with
  | nil => exact ⟨_, rfl, le_refl _⟩
  | cons txid l ih =>
    obtain ⟨revision, heq, hle⟩ := ih (s := removeReceiveRequestPayment s txid)
    exact ⟨revision, heq, (Nat.le_succ _).trans hle⟩

omit [DecidableEq Address] in
theorem foldl_confirm : l.foldl confirmReceiveRequestPayment s =
    { s with payments := l.foldl ReceivePayments.confirm s.payments } := by
  induction l generalizing s with
  | nil => rfl
  | cons txid l ih => exact ih

end Apply

theorem Sound.applyPoll {wallet : Wallet Address} {A : Finset Address} {p : ReceivePayments Address}
    {U : Finset Txid} {N : Set Txid} {poll : Poll} (h : Sound wallet A p U N)
    (hpoll : Polling wallet p.m_receive_request_unconfirmed_txids U poll N) :
    Sound wallet A (poll.confirmed.foldl ReceivePayments.confirm
      (poll.inactive.foldl ReceivePayments.remove p)) (U \ poll.fresh) N := by
  have hfresh : ∀ txid, txid ∉ U \ poll.fresh → txid ∉ U ∨ txid ∈ poll.fresh := by
    intro txid hnot
    rw [Finset.mem_sdiff, not_and, not_not] at hnot
    by_cases hin : txid ∈ U
    · exact .inr (hnot hin)
    · exact .inl hin
  have hread : ∀ txid, txid ∈ poll.inactive ∨ txid ∈ poll.confirmed → txid ∉ U \ poll.fresh →
      txid ∈ poll.fresh := by
    intro txid hin hnot
    by_contra hstale
    exact hnot (Finset.mem_sdiff.mpr ⟨hpoll.changed txid hin hstale, hstale⟩)
  -- A fresh transaction that is active was recorded, as unconfirmed, and is still there.
  have hactive : ∀ txid ∉ N, txid ∈ poll.fresh → txid ∉ poll.inactive → ∃ w, wallet txid = some w ∧
      p.record txid = some (receivedOf A w.1, true) ∧
      truth wallet A txid = some (receivedOf A w.1, decide (w.2.depth_in_main_chain = 0)) ∧
      0 ≤ w.2.depth_in_main_chain ∧ (txid ∈ poll.confirmed ↔ 0 < w.2.depth_in_main_chain) := by
    intro txid hnot hin hother
    obtain ⟨hactive, hconfirmed⟩ := hpoll.active txid hin hother hnot
    obtain ⟨r, hr⟩ := Option.ne_none_iff_exists'.mp (h.wf.unconfirmed txid (hpoll.fresh txid hin))
    obtain ⟨w, hw, hnonempty, heq⟩ := h.recorded txid hnot r hr
    have hunconfirmed : r.2 = true := by
      unfold ReceivePayments.record at hr
      obtain ⟨payment, -, rfl⟩ := Option.map_eq_some_iff.mp hr
      exact decide_eq_true (hpoll.fresh txid hin)
    have hstatus : isInactive w.2 w.1.replaced = false := by
      unfold inactiveNow getWalletTxDetails at hactive
      rw [hw] at hactive
      simpa using hactive
    refine ⟨w, hw, ?_, ?_, ?_, ?_⟩
    · rw [hr, ← heq, ← hunconfirmed]
    · rw [truth, hw, Option.bind_some, record_scan, hnonempty, hstatus]
      rfl
    · by_contra hneg
      simp [isInactive, not_le.mp hneg] at hstatus
    · rw [hconfirmed, getWalletTxDetails, hw]
  refine ⟨wf_confirmed (wf_removed h.wf), fun txid hnot r hr => ?_, fun txid hnot huninspected => ?_⟩
  · rw [record_confirmed, record_removed] at hr
    by_cases hinactive : txid ∈ poll.inactive
    · simp [hinactive] at hr
    rw [if_neg hinactive] at hr
    split at hr
    · obtain ⟨r', hr', rfl⟩ := Option.map_eq_some_iff.mp hr
      exact h.recorded txid hnot r' hr'
    · exact h.recorded txid hnot r hr
  · rw [record_confirmed, record_removed]
    by_cases hinactive : txid ∈ poll.inactive
    · have hgone := hpoll.inactive txid hinactive (hread txid (.inl hinactive) huninspected) hnot
      rw [truth_of_inactive hgone]
      simp [hinactive]
    rw [if_neg hinactive]
    split
    · rename_i hconfirmed
      obtain ⟨w, -, hrecord, htruth, -, hdeep⟩ :=
        hactive txid hnot (hread txid (.inr hconfirmed) huninspected) hinactive
      rw [hrecord, htruth, decide_eq_false (ne_of_gt (hdeep.mp hconfirmed))]
      rfl
    · rename_i hconfirmed
      rcases hfresh txid huninspected with hnotin | hin
      · exact h.exact txid hnot hnotin
      · obtain ⟨w, -, hrecord, htruth, hnonneg, hdeep⟩ := hactive txid hnot hin hinactive
        have hzero : w.2.depth_in_main_chain = 0 :=
          le_antisymm (not_lt.mp fun hlt => hconfirmed (hdeep.mpr hlt)) hnonneg
        rw [hrecord, htruth, decide_eq_true hzero]

theorem Inv.applyPoll {poll : Poll} (h : Inv s) (hpoll : s.poll = some poll) :
    Inv (applyPoll s poll) := by
  unfold GuiQml.Receive.applyPoll
  dsimp only
  split
  · exact {
      toBase := ⟨h.agree, h.addresses, h.queue, h.deleted, h.cleared, (fun _ hnone => by cases hnone)⟩
      idle := fun hscan => ⟨(h.idle hscan).sound, (h.idle hscan).locked⟩
      scanning := fun scan hscan hrequested =>
        ⟨(h.scanning scan hscan hrequested).addresses, (h.scanning scan hscan hrequested).unlisted,
          (h.scanning scan hscan hrequested).listed⟩
      polling := fun _ hnone _ _ => by cases hnone }
  rename_i hcond
  have hcurrent : poll.revision = s.m_receive_payment_revision ∧ s.scan = none := by
    simp only [ne_eq, Bool.or_eq_true, decide_eq_true_eq, not_or, not_not, Bool.not_eq_true,
      Option.isSome_eq_false_iff, Option.isNone_iff_eq_none] at hcond
    exact hcond.1
  have hidle := h.idle hcurrent.2
  have hsound := hidle.sound.applyPoll (h.polling poll hpoll hcurrent.1 hcurrent.2)
  obtain ⟨revision, hremoved, -⟩ := foldl_remove (s := { s with poll := none }) (l := poll.inactive)
  rw [hremoved, foldl_confirm]
  exact {
    toBase := ⟨h.agree, h.addresses, h.queue, h.deleted, h.cleared, (fun _ hnone => by cases hnone)⟩
    idle := fun _ => ⟨hsound, hidle.locked⟩
    scanning := fun scan hscan _ => by cases hcurrent.2.symm.trans hscan
    polling := fun _ hnone _ _ => by cases hnone }

/-! ## Runs -/

variable {isValid : Address → Bool} {wallet : Wallet Address}
  {stored : ReceiveRequestHistoryModel Address} {s' : System Address}

theorem Inv.step (h : Inv s) (hstep : Step isValid SavesUnpaid s s') : Inv s' := by
  cases hstep with
  | save store request hsaves => exact h.savePaymentRequest hsaves
  | update store id amount label message note => exact h.updatePaymentRequest
  | remove store id => exact h.removeReceiveRequest
  | label store written address label => exact h.setAddressLabel
  | reload => exact h.toBase.reload
  | notified txid entry => exact h.notified
  | unnotified txid tx status tx' status' _ hw hvout => exact h.unnotified hw hvout
  | deliver store => exact h.deliver
  | list scan l hscan hremaining hlists => exact h.list hscan hremaining hlists
  | read scan hscan => exact h.read hscan
  | applyScan store scan hscan hremaining => exact h.applyScan hscan hremaining
  | poll => exact h.startPoll
  | readPoll poll hpoll => exact h.readPoll hpoll
  | applyPoll poll hpoll _ => exact h.applyPoll hpoll

theorem inv_start : Inv (start wallet stored) := by
  unfold start reloadReceiveRequests
  refine Base.refresh ⟨.refl, rfl, ?_, ?_, fun _ => rfl, fun poll hpoll => ?_⟩
  · intro pre txid deleted post hsplit
    exact absurd hsplit (by simp)
  · intro txid hflag
    rw [Std.ExtTreeMap.getElem?_empty] at hflag
    cases hflag
  · cases hpoll

theorem inv_run (h : Relation.ReflTransGen (Step isValid SavesUnpaid) (start wallet stored) s) : Inv s := by
  induction h with
  | refl => exact inv_start
  | tail _ hstep ih => exact ih.step hstep

/-! ## A reload -/

def paying : WalletTx Nat × WalletTxStatus :=
  ({ vout := [{ nValue := 10, is_mine := true, destination := some 5 }], replaced := false },
    { depth_in_main_chain := 1 })

def paidWallet : Wallet Nat := fun txid => if txid = 0 then some paying else none

end GuiQml.Receive
