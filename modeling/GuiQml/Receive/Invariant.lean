import GuiQml.Receive.Sound

/-!
# The invariant of the payments

The invariant of every run: outside a scan the payments of the model are sound, in a scan those of the scan
are, up to what it has still to read and to replay. A poll of the current revision has read what it
inspects. A restart makes the scan in progress worth nothing, so nothing is asked of it.
-/

namespace GuiQml.Receive

variable {Address : Type} {s : System Address}

/-! ## Invariant -/

def queued (s : System Address) : Set Txid := {txid | txid ∈ s.notifications.map (·.1)}

/-- Transactions that a notification or a replay settles. -/
def awaited (s : System Address) : Set Txid :=
  queued s ∪ {txid | txid ∈ s.m_receive_reconciliation_updates}

variable [DecidableEq Address]

/-- What holds in all states. -/
structure Base (s : System Address) : Prop where
  agree : Agree s.stored s.m_receive_requests
  addresses : s.m_receive_request_addresses = s.m_receive_requests.requestAddresses
  /-- The last notification tells whether the transaction is gone. -/
  queue : ∀ pre txid deleted post, s.notifications = pre ++ (txid, deleted) :: post →
    txid ∉ post.map (·.1) → deleted = (s.wallet txid).isNone
  deleted : ∀ txid, s.m_receive_reconciliation_updates[txid]? = some true →
    txid ∈ queued s ∨ s.wallet txid = none
  cleared : s.scan = none → s.m_receive_reconciliation_updates = ∅
  polled : ∀ poll, s.poll = some poll → poll.revision ≤ s.m_receive_payment_revision

structure Idle (s : System Address) : Prop where
  sound : Sound s.wallet s.m_receive_request_addresses s.payments s.uninspected (queued s)
  locked : Locked s.m_receive_requests (Pays s.wallet (queued s))

/-- A scan with its listed transactions, where `N` is to be settled later. -/
structure Listed (wallet : Wallet Address) (shown : ReceiveRequestHistoryModel Address)
    (scan : Scan Address) (l : List (Txid × WalletTx Address)) (N : Set Txid) : Prop where
  nodup : (l.map (·.1)).Nodup
  snapshot : ∀ txid tx, (txid, tx) ∈ l → txid ∉ N → ∃ w, wallet txid = some w ∧
    w.1.vout = tx.vout ∧ (txid ∉ scan.stale → w.1.replaced = tx.replaced)
  unread : ∀ txid ∈ l.map (·.1), scan.result.payments.record txid = none
  sound : Sound wallet scan.addresses scan.result.payments scan.stale (N ∪ {txid | txid ∈ l.map (·.1)})
  locked : Locked shown fun address => Pays wallet (N ∪ {txid | txid ∈ l.map (·.1)}) address ∧
    address ∉ scan.result.observed_addresses

structure Scanning (s : System Address) (scan : Scan Address) : Prop where
  addresses : scan.addresses = s.m_receive_request_addresses
  unlisted : scan.remaining = none → scan.result = {} ∧ scan.stale = ∅
  listed : ∀ l, scan.remaining = some l → Listed s.wallet s.m_receive_requests scan l (awaited s)

/-- A poll of the current payments, where `N` is to be settled later. -/
structure Polling (wallet : Wallet Address) (unconfirmed uninspected : Finset Txid) (poll : Poll)
    (N : Set Txid) : Prop where
  unread : ∀ txid ∈ poll.remaining, txid ∈ unconfirmed ∧ txid ∉ poll.inactive ∧ txid ∉ poll.confirmed
  nodup : poll.remaining.Nodup
  fresh : ∀ txid ∈ poll.fresh, txid ∈ unconfirmed
  changed : ∀ txid, txid ∈ poll.inactive ∨ txid ∈ poll.confirmed → txid ∉ poll.fresh →
    txid ∈ uninspected
  inactive : ∀ txid ∈ poll.inactive, txid ∈ poll.fresh → txid ∉ N → inactiveNow wallet txid = true
  active : ∀ txid ∈ poll.fresh, txid ∉ poll.inactive → txid ∉ N → inactiveNow wallet txid = false ∧
    (txid ∈ poll.confirmed ↔ 0 < (getWalletTxDetails wallet txid).2.depth_in_main_chain)

structure Inv (s : System Address) : Prop extends Base s where
  idle : s.scan = none → Idle s
  scanning : ∀ scan, s.scan = some scan → s.m_receive_reconciliation_requested = false →
    Scanning s scan
  polling : ∀ poll, s.poll = some poll → poll.revision = s.m_receive_payment_revision →
    s.scan = none → Polling s.wallet s.payments.m_receive_request_unconfirmed_txids s.uninspected poll
      (queued s)

/-! ## Refreshes -/

omit [DecidableEq Address] in
theorem Locked.empty {shown : ReceiveRequestHistoryModel Address} {due : Address → Prop}
    (h : shown.m_entries = []) : Locked shown due := by
  intro e he
  rw [h] at he
  cases he

theorem Base.refresh (h : Base s) : Inv (refreshReceiveRequestPayments s) := by
  unfold refreshReceiveRequestPayments
  split
  · rename_i hscan
    obtain ⟨scan, hscan⟩ := Option.isSome_iff_exists.mp hscan
    exact {
      toBase := ⟨h.agree, h.addresses, h.queue, h.deleted, h.cleared, h.polled⟩
      idle := fun hnone => by cases hscan.symm.trans hnone
      scanning := fun _ _ hrequested => by cases hrequested
      polling := fun _ _ _ hnone => by cases hscan.symm.trans hnone }
  rename_i hscan
  have hnone : s.scan = none := by simpa using hscan
  split
  · rename_i hempty
    have hentries : s.m_receive_requests.m_entries = [] := List.isEmpty_iff.mp hempty
    have haddresses : s.m_receive_request_addresses = ∅ := by
      rw [h.addresses, ReceiveRequestHistoryModel.requestAddresses, hentries]
      rfl
    have htruth : ∀ txid, truth s.wallet ∅ txid = none := by
      intro txid
      unfold truth
      cases s.wallet txid with
      | none => rfl
      | some w =>
        rw [Option.bind_some, record_scan, receivedOf_isEmpty, if_pos]
        have : requestOutputs ∅ w.1 = [] := by
          refine List.filterMap_eq_nil_iff.mpr fun output _ => ?_
          unfold requestOutput
          cases ownAddress output <;> simp
        rw [this]
        rfl
    exact {
      toBase := ⟨h.agree, h.addresses, h.queue, h.deleted, h.cleared,
        fun poll hpoll => Nat.le_succ_of_le (h.polled poll hpoll)⟩
      idle := fun _ =>
        { sound :=
            { wf := .empty
              recorded := fun _ _ _ hr => by cases hr
              exact := fun txid _ _ => by rw [haddresses, htruth]; rfl }
          locked := .empty hentries }
      scanning := fun scan hscan _ => by cases hnone.symm.trans hscan
      polling := fun poll hpoll hrevision _ => by
        have := h.polled poll hpoll
        simp only at hrevision
        omega }
  · exact {
      toBase := ⟨h.agree, h.addresses, h.queue, h.deleted, (fun hscan => by cases hscan), h.polled⟩
      idle := fun hscan => by cases hscan
      scanning := fun scan hscan _ => by
        obtain rfl := Option.some.inj hscan
        exact ⟨rfl, fun _ => ⟨rfl, rfl⟩, fun _ hlisted => by cases hlisted⟩
      polling := fun _ _ _ hscan => by cases hscan }

/-! ## Changes of the wallet -/

section Changes

variable {wallet : Wallet Address} {A : Finset Address} {p : ReceivePayments Address}
  {U U' unconfirmed : Finset Txid} {N N' : Set Txid} {txid : Txid} {tx tx' : WalletTx Address}
  {status status' : WalletTxStatus} {entry : Option (WalletTx Address × WalletTxStatus)}
  {shown : ReceiveRequestHistoryModel Address} {scan : Scan Address} {poll : Poll}
  {l : List (Txid × WalletTx Address)}

theorem receivedOf_congr (h : tx'.vout = tx.vout) : receivedOf A tx' = receivedOf A tx := by
  rw [receivedOf, receivedOf, requestOutputs, requestOutputs, h]

/-- A change that is still to be told disturbs nothing. -/
theorem Sound.notified (h : Sound wallet A p U N) (hN : N ⊆ N') (hin : txid ∈ N') :
    Sound (Function.update wallet txid entry) A p U N' where
  wf := h.wf
  recorded other hnot r hr := by
    have hne : other ≠ txid := fun heq => hnot (heq ▸ hin)
    rw [Function.update_of_ne hne]
    exact h.recorded other (fun hother => hnot (hN hother)) r hr
  exact other hnot huninspected := by
    have hne : other ≠ txid := fun heq => hnot (heq ▸ hin)
    rw [truth, Function.update_of_ne hne]
    exact h.exact other (fun hother => hnot (hN hother)) huninspected

theorem Sound.unnotified (h : Sound wallet A p U N) (hw : wallet txid = some (tx, status))
    (hvout : tx'.vout = tx.vout) (hU : U ⊆ U') (hin : txid ∈ N ∨ txid ∈ U') :
    Sound (Function.update wallet txid (some (tx', status'))) A p U' N where
  wf := h.wf
  recorded other hnot r hr := by
    obtain ⟨w, hother, hnonempty, heq⟩ := h.recorded other hnot r hr
    by_cases hsame : other = txid
    · subst hsame
      obtain rfl := Option.some.inj (hw.symm.trans hother)
      rw [Function.update_self]
      exact ⟨_, rfl, (receivedOf_congr hvout).symm ▸ hnonempty, heq.trans (receivedOf_congr hvout).symm⟩
    · rw [Function.update_of_ne hsame]
      exact ⟨w, hother, hnonempty, heq⟩
  exact other hnot huninspected := by
    have hne : other ≠ txid := by
      rintro rfl
      exact hin.elim hnot huninspected
    rw [truth, Function.update_of_ne hne]
    exact h.exact other hnot fun hother => huninspected (hU hother)

omit [DecidableEq Address] in
theorem Pays.of_notified {address : Address} (hN : N ⊆ N') (hin : txid ∈ N')
    (h : Pays (Function.update wallet txid entry) N' address) : Pays wallet N address := by
  obtain ⟨other, hnot, w, hw, hown⟩ := h
  have hne : other ≠ txid := fun heq => hnot (heq ▸ hin)
  rw [Function.update_of_ne hne] at hw
  exact ⟨other, fun hother => hnot (hN hother), w, hw, hown⟩

omit [DecidableEq Address] in
theorem Pays.of_unnotified {address : Address} (hw : wallet txid = some (tx, status))
    (hvout : tx'.vout = tx.vout)
    (h : Pays (Function.update wallet txid (some (tx', status'))) N address) : Pays wallet N address := by
  obtain ⟨other, hnot, w, hother, hown⟩ := h
  by_cases hsame : other = txid
  · subst hsame
    rw [Function.update_self] at hother
    obtain rfl := Option.some.inj hother
    refine ⟨other, hnot, _, hw, ?_⟩
    rwa [ownAddresses, ← hvout]
  · rw [Function.update_of_ne hsame] at hother
    exact ⟨other, hnot, w, hother, hown⟩

omit [DecidableEq Address] in
theorem Locked.mono {shown' : ReceiveRequestHistoryModel Address} {due due' : Address → Prop}
    (h : Locked shown due)
    (hshown : ∀ e ∈ shown'.m_entries, e.payment_received = false →
      ∃ old ∈ shown.m_entries, old.payment_received = false ∧ old.address = e.address)
    (hdue : ∀ address, due' address → due address) : Locked shown' due' := by
  intro e he hlock hpays
  obtain ⟨old, hold, hold', haddress⟩ := hshown e he hlock
  exact h old hold hold' (haddress ▸ hdue e.address hpays)

theorem Listed.notified (h : Listed wallet shown scan l N) (hN : N ⊆ N') (hin : txid ∈ N') :
    Listed (Function.update wallet txid entry) shown scan l N' where
  nodup := h.nodup
  snapshot other tx hmem hnot := by
    have hne : other ≠ txid := fun heq => hnot (heq ▸ hin)
    rw [Function.update_of_ne hne]
    exact h.snapshot other tx hmem fun hother => hnot (hN hother)
  unread := h.unread
  sound := h.sound.notified (Set.union_subset_union_left _ hN) (.inl hin)
  locked := h.locked.mono (fun e he hlock => ⟨e, he, hlock, rfl⟩) fun _ hdue =>
    ⟨hdue.1.of_notified (Set.union_subset_union_left _ hN) (.inl hin), hdue.2⟩

omit [DecidableEq Address] in
theorem Scan.change_remaining {replaced : Bool} :
    (scan.change txid replaced).remaining = scan.remaining := by
  unfold Scan.change
  split
  · rfl
  · split <;> rfl

omit [DecidableEq Address] in
theorem Scan.change_addresses {replaced : Bool} :
    (scan.change txid replaced).addresses = scan.addresses := by
  unfold Scan.change
  split
  · rfl
  · split <;> rfl

theorem Listed.unnotified (h : Listed wallet shown scan l N) (hremaining : scan.remaining = some l)
    (hw : wallet txid = some (tx, status)) (hvout : tx'.vout = tx.vout) :
    Listed (Function.update wallet txid (some (tx', status'))) shown
      (scan.change txid (tx.replaced != tx'.replaced)) l N := by
  have hsnapshot : ∀ stale : Finset Txid, scan.stale ⊆ stale →
      (txid ∈ stale ∨ tx'.replaced = tx.replaced) → ∀ other w, (other, w) ∈ l → other ∉ N →
      ∃ w', Function.update wallet txid (some (tx', status')) other = some w' ∧ w'.1.vout = w.vout ∧
        (other ∉ stale → w'.1.replaced = w.replaced) := by
    intro stale hstale hreplaced other w hmem hnot
    obtain ⟨w', hw', hvout', hreplaced'⟩ := h.snapshot other w hmem hnot
    by_cases hsame : other = txid
    · subst hsame
      obtain rfl := Option.some.inj (hw.symm.trans hw')
      rw [Function.update_self]
      refine ⟨_, rfl, hvout.trans hvout', fun hnotstale => ?_⟩
      exact (hreplaced.resolve_left hnotstale).trans (hreplaced' fun hin => hnotstale (hstale hin))
    · rw [Function.update_of_ne hsame]
      exact ⟨w', hw', hvout', fun hnotstale => hreplaced' fun hin => hnotstale (hstale hin)⟩
  have hlocked : Locked shown fun address =>
      Pays (Function.update wallet txid (some (tx', status'))) (N ∪ {txid | txid ∈ l.map (·.1)}) address ∧
        address ∉ scan.result.observed_addresses :=
    h.locked.mono (fun e he hlock => ⟨e, he, hlock, rfl⟩) fun _ hdue => ⟨hdue.1.of_unnotified hw hvout, hdue.2⟩
  unfold Scan.change
  rw [hremaining]
  dsimp only
  split
  · rename_i hcond
    rw [Bool.and_eq_true, decide_eq_true_eq] at hcond
    have hreplaced : tx'.replaced = tx.replaced :=
      (bne_eq_false_iff_eq.mp (Bool.not_eq_true' _ ▸ hcond.2)).symm
    exact ⟨h.nodup, hsnapshot _ (Finset.Subset.refl _) (.inr hreplaced), h.unread,
      h.sound.unnotified hw hvout (Finset.Subset.refl _) (.inl (.inr hcond.1)), hlocked⟩
  · exact ⟨h.nodup, hsnapshot _ (Finset.subset_insert _ _) (.inl (Finset.mem_insert_self _ _)), h.unread,
      h.sound.unnotified hw hvout (Finset.subset_insert _ _) (.inr (Finset.mem_insert_self _ _)), hlocked⟩

omit [DecidableEq Address] in
theorem Polling.notified (h : Polling wallet unconfirmed U poll N) (hN : N ⊆ N') (hin : txid ∈ N') :
    Polling (Function.update wallet txid entry) unconfirmed U poll N' where
  unread := h.unread
  nodup := h.nodup
  fresh := h.fresh
  changed := h.changed
  inactive other hother hfresh hnot := by
    have hne : other ≠ txid := fun heq => hnot (heq ▸ hin)
    rw [inactiveNow, getWalletTxDetails, Function.update_of_ne hne]
    exact h.inactive other hother hfresh fun hother => hnot (hN hother)
  active other hother hfresh hnot := by
    have hne : other ≠ txid := fun heq => hnot (heq ▸ hin)
    rw [inactiveNow, getWalletTxDetails, Function.update_of_ne hne]
    exact h.active other hother hfresh fun hother => hnot (hN hother)

omit [DecidableEq Address] in
theorem Polling.unnotified (h : Polling wallet unconfirmed U poll N) :
    Polling (Function.update wallet txid entry) unconfirmed (insert txid U)
      { poll with fresh := poll.fresh.erase txid } N where
  unread := h.unread
  nodup := h.nodup
  fresh other hfresh := h.fresh other (Finset.mem_of_mem_erase hfresh)
  changed other hother hstale := by
    by_cases hsame : other = txid
    · exact hsame ▸ Finset.mem_insert_self _ _
    · refine Finset.mem_insert_of_mem (h.changed other hother fun hfresh => hstale ?_)
      exact Finset.mem_erase.mpr ⟨hsame, hfresh⟩
  inactive other hother hfresh hnot := by
    obtain ⟨hne, hfresh⟩ := Finset.mem_erase.mp hfresh
    rw [inactiveNow, getWalletTxDetails, Function.update_of_ne hne]
    exact h.inactive other hother hfresh hnot
  active other hfresh hother hnot := by
    obtain ⟨hne, hfresh⟩ := Finset.mem_erase.mp hfresh
    rw [inactiveNow, getWalletTxDetails, Function.update_of_ne hne]
    exact h.active other hfresh hother hnot

theorem Inv.notified (h : Inv s) : Inv (changeNotified s txid entry) := by
  have hqueued : queued s ⊆ queued (changeNotified s txid entry) := by
    intro other hother
    simp only [queued, changeNotified, List.map_append] at hother ⊢
    exact List.mem_append_left _ hother
  have hin : txid ∈ queued (changeNotified s txid entry) := by
    simp only [queued, changeNotified, List.map_append]
    exact List.mem_append_right _ List.mem_cons_self
  exact {
    agree := h.agree
    addresses := h.addresses
    queue := by
      intro pre other deleted post hsplit hlast
      change s.notifications ++ [(txid, entry.isNone)] = pre ++ (other, deleted) :: post at hsplit
      change deleted = (Function.update s.wallet txid entry other).isNone
      rcases List.eq_nil_or_concat post with rfl | ⟨post, last, rfl⟩
      · obtain ⟨-, heq⟩ := List.append_inj' hsplit rfl
        obtain ⟨rfl, rfl⟩ := Prod.mk.inj (List.cons.inj heq).1
        rw [Function.update_self]
      · rw [List.concat_eq_append, ← List.cons_append, ← List.append_assoc] at hsplit
        obtain ⟨hfront, heq⟩ := List.append_inj' hsplit rfl
        rw [List.concat_eq_append, List.map_append, List.mem_append, not_or] at hlast
        obtain rfl := (List.cons.inj heq).1
        have hne : other ≠ txid := by simpa using hlast.2
        rw [Function.update_of_ne hne]
        exact h.queue pre other deleted post hfront hlast.1
    deleted := by
      intro other hflag
      by_cases hsame : other = txid
      · exact .inl (hsame ▸ hin)
      · refine (h.deleted other hflag).imp (fun hother => hqueued hother) fun hnone => ?_
        exact (Function.update_of_ne hsame _ _).trans hnone
    cleared := h.cleared
    polled := h.polled
    idle := fun hscan =>
      { sound := (h.idle hscan).sound.notified hqueued hin
        locked := (h.idle hscan).locked.mono (fun e he hlock => ⟨e, he, hlock, rfl⟩)
          fun _ => Pays.of_notified hqueued hin }
    scanning := fun scan hscan hrequested =>
      let hold := h.scanning scan hscan hrequested
      { addresses := hold.addresses
        unlisted := hold.unlisted
        listed := fun l hl =>
          (hold.listed l hl).notified (Set.union_subset_union_left _ hqueued) (.inl hin) }
    polling := fun poll hpoll hrevision hscan =>
      (h.polling poll hpoll hrevision hscan).notified hqueued hin }

theorem Inv.unnotified (h : Inv s) (hw : s.wallet txid = some (tx, status))
    (hvout : tx'.vout = tx.vout) : Inv (changeUnnotified s txid tx tx' status') := by
  have hisNone : ∀ other, (Function.update s.wallet txid (some (tx', status')) other).isNone =
      (s.wallet other).isNone := by
    intro other
    by_cases hsame : other = txid
    · rw [hsame, Function.update_self, hw]
      rfl
    · rw [Function.update_of_ne hsame]
  exact {
    agree := h.agree
    addresses := h.addresses
    queue := fun pre other deleted post hsplit hlast =>
      (h.queue pre other deleted post hsplit hlast).trans (hisNone other).symm
    deleted := fun other hflag => (h.deleted other hflag).imp_right fun hnone => by
      have := hisNone other
      rw [hnone] at this
      exact Option.isNone_iff_eq_none.mp this
    cleared := fun hscan => h.cleared (Option.map_eq_none_iff.mp hscan)
    polled := by
      intro poll hpoll
      obtain ⟨old, hold, rfl⟩ := Option.map_eq_some_iff.mp hpoll
      exact h.polled old hold
    idle := fun hscan =>
      let hold := h.idle (Option.map_eq_none_iff.mp hscan)
      { sound := hold.sound.unnotified hw hvout (Finset.subset_insert _ _)
          (.inr (Finset.mem_insert_self _ _))
        locked := hold.locked.mono (fun e he hlock => ⟨e, he, hlock, rfl⟩)
          fun _ => Pays.of_unnotified hw hvout }
    scanning := by
      intro scan hscan hrequested
      obtain ⟨old, hold, rfl⟩ := Option.map_eq_some_iff.mp hscan
      have hscanning := h.scanning old hold hrequested
      refine ⟨Scan.change_addresses.trans hscanning.addresses, fun hnone => ?_, fun l hl => ?_⟩
      · rw [Scan.change_remaining] at hnone
        unfold Scan.change
        rw [hnone]
        exact hscanning.unlisted hnone
      · rw [Scan.change_remaining] at hl
        exact (hscanning.listed l hl).unnotified hl hw hvout
    polling := by
      intro poll hpoll hrevision hscan
      obtain ⟨old, hold, rfl⟩ := Option.map_eq_some_iff.mp hpoll
      exact (h.polling old hold hrevision (Option.map_eq_none_iff.mp hscan)).unnotified }

end Changes

end GuiQml.Receive
