import GuiQml.Receive.Reconciliation

/-!
# What an update keeps

The names of the requests never change with a lock, and a lock is never taken away. The payments are sound
where no notification is to come: what is recorded is what the wallet says, up to changes that nothing
has inspected.
-/

namespace GuiQml.Receive

section Facts

variable {Address : Type} {stored shown : ReceiveRequestHistoryModel Address}
  {entry other : QmlRecentRequestEntry Address}

/-! ## Requests of the wallet and requests that are shown -/

def ReceiveRequestHistoryModel.names (r : ReceiveRequestHistoryModel Address) : Set (Int × Address) :=
  fun name => ∃ entry ∈ r.m_entries, (entry.id, entry.address) = name

theorem mem_names_of_mem (h : entry ∈ shown.m_entries) : (entry.id, entry.address) ∈ shown.names :=
  ⟨entry, h, rfl⟩

theorem mem_names_prependOrReplace {name : Int × Address} :
    name ∈ (shown.prependOrReplace entry).names ↔
      name = (entry.id, entry.address) ∨ name ∈ shown.names ∧ name.1 ≠ entry.id := by
  constructor
  · rintro ⟨other, hother, rfl⟩
    rcases ReceiveRequestHistoryModel.mem_prependOrReplace.mp hother with rfl | ⟨hin, hne⟩
    · exact .inl rfl
    · exact .inr ⟨mem_names_of_mem hin, hne⟩
  · rintro (rfl | ⟨⟨other, hother, rfl⟩, hne⟩)
    · exact mem_names_of_mem (ReceiveRequestHistoryModel.mem_prependOrReplace.mpr (.inl rfl))
    · exact mem_names_of_mem
        (ReceiveRequestHistoryModel.mem_prependOrReplace.mpr (.inr ⟨hother, hne⟩))

theorem names_prependOrReplace (h : (entry.id, entry.address) ∈ shown.names) :
    (shown.prependOrReplace entry).names = shown.names := by
  ext name
  rw [mem_names_prependOrReplace]
  constructor
  · rintro (rfl | ⟨hin, -⟩)
    · exact h
    · exact hin
  · intro hin
    by_cases hid : name.1 = entry.id
    · obtain ⟨x, hx, rfl⟩ := hin
      obtain ⟨y, hy, heq⟩ := h
      have hsame : x = y :=
        ReceiveRequestHistoryModel.eq_of_id hx hy (hid.trans (congrArg Prod.fst heq).symm)
      rw [hsame]
      exact .inl heq
    · exact .inr ⟨hin, hid⟩

theorem names_removeByRequestId {id : Int} {name : Int × Address} :
    name ∈ (shown.removeByRequestId id).names ↔ name ∈ shown.names ∧ name.1 ≠ id := by
  constructor
  · rintro ⟨entry, hentry, rfl⟩
    obtain ⟨hin, hne⟩ := ReceiveRequestHistoryModel.mem_removeByRequestId.mp hentry
    exact ⟨mem_names_of_mem hin, hne⟩
  · rintro ⟨⟨entry, hentry, rfl⟩, hne⟩
    exact mem_names_of_mem (ReceiveRequestHistoryModel.mem_removeByRequestId.mpr ⟨hentry, hne⟩)

/-- The same requests, and a lock in the wallet is shown. -/
structure Agree (stored shown : ReceiveRequestHistoryModel Address) : Prop where
  names : stored.names = shown.names
  locks : ∀ e ∈ stored.m_entries, e.payment_received = true →
    ∀ e' ∈ shown.m_entries, e'.id = e.id → e'.payment_received = true

theorem Agree.refl : Agree shown shown where
  names := rfl
  locks e he hlock e' he' hid := by rwa [ReceiveRequestHistoryModel.eq_of_id he' he hid]

theorem Agree.write (h : Agree stored shown) :
    Agree (stored.prependOrReplace entry) (shown.prependOrReplace entry) where
  names := by
    ext name
    rw [mem_names_prependOrReplace, mem_names_prependOrReplace, h.names]
  locks e he hlock e' he' hid := by
    rcases ReceiveRequestHistoryModel.mem_prependOrReplace.mp he with rfl | ⟨he, hne⟩
    · rcases ReceiveRequestHistoryModel.mem_prependOrReplace.mp he' with rfl | ⟨-, hne'⟩
      · exact hlock
      · exact absurd hid hne'
    · rcases ReceiveRequestHistoryModel.mem_prependOrReplace.mp he' with rfl | ⟨he', -⟩
      · exact absurd hid.symm hne
      · exact h.locks e he hlock e' he' hid

theorem Agree.remove (h : Agree stored shown) {id : Int} :
    Agree (stored.removeByRequestId id) (shown.removeByRequestId id) where
  names := by
    ext name
    rw [names_removeByRequestId, names_removeByRequestId, h.names]
  locks e he hlock e' he' hid :=
    h.locks e (ReceiveRequestHistoryModel.mem_removeByRequestId.mp he).1 hlock e'
      (ReceiveRequestHistoryModel.mem_removeByRequestId.mp he').1 hid

/-- The wallet may have missed the lock. -/
theorem Agree.mark (h : Agree stored shown) (hentry : entry ∈ shown.m_entries) (ok : Bool) :
    Agree (if ok then stored.prependOrReplace { entry with payment_received := true } else stored)
      (shown.prependOrReplace { entry with payment_received := true }) := by
  cases ok with
  | true => exact h.write
  | false =>
    refine ⟨h.names.trans (names_prependOrReplace ?_).symm, fun e he hlock e' he' hid => ?_⟩
    · exact ⟨entry, hentry, rfl⟩
    rcases ReceiveRequestHistoryModel.mem_prependOrReplace.mp he' with rfl | ⟨he', -⟩
    · rfl
    · exact h.locks e he hlock e' he' hid

variable [DecidableEq Address]

theorem requestAddresses_of_names (h : stored.names = shown.names) :
    stored.requestAddresses = shown.requestAddresses := by
  have hmem : ∀ (r : ReceiveRequestHistoryModel Address) address,
      address ∈ r.requestAddresses ↔ ∃ id, (id, address) ∈ r.names := by
    intro r address
    rw [ReceiveRequestHistoryModel.mem_requestAddresses]
    constructor
    · rintro ⟨entry, hentry, rfl⟩
      exact ⟨entry.id, mem_names_of_mem hentry⟩
    · rintro ⟨id, entry, hentry, heq⟩
      exact ⟨entry, hentry, congrArg Prod.snd heq⟩
  ext address
  rw [hmem, hmem, h]

/-! ## Marks -/

variable {store : Int → Bool} {s s' s'' : System Address}
  {marked marked' : Set (QmlRecentRequestEntry Address)}

/-- Locks are set, and those of the marked entries are. -/
structure Marked (marked : Set (QmlRecentRequestEntry Address)) (s s' : System Address) : Prop where
  frame : s' = { s with stored := s'.stored, m_receive_requests := s'.m_receive_requests }
  names : s'.m_receive_requests.names = s.m_receive_requests.names
  agree : Agree s.stored s.m_receive_requests → Agree s'.stored s'.m_receive_requests
  unlocked : ∀ e ∈ s'.m_receive_requests.m_entries, e.payment_received = false →
    e ∈ s.m_receive_requests.m_entries ∧ e ∉ marked

omit [DecidableEq Address] in
theorem Marked.refl : Marked ∅ s s := ⟨rfl, rfl, id, fun _ h _ => ⟨h, fun h => h⟩⟩

omit [DecidableEq Address] in
theorem Marked.trans (h : Marked marked s s') (h' : Marked marked' s' s'') :
    Marked (marked ∪ marked') s s'' where
  frame := by
    rw [h'.frame, h.frame]
  names := h'.names.trans h.names
  agree := h'.agree ∘ h.agree
  unlocked e he hlock := by
    obtain ⟨he', hnot'⟩ := h'.unlocked e he hlock
    obtain ⟨he'', hnot⟩ := h.unlocked e he' hlock
    exact ⟨he'', fun hin => hin.elim hnot hnot'⟩

omit [DecidableEq Address] in
theorem Marked.mono (h : Marked marked s s')
    (hsub : ∀ e ∈ s.m_receive_requests.m_entries, e ∈ marked' → e ∈ marked) : Marked marked' s s' :=
  ⟨h.frame, h.names, h.agree, fun e he hlock =>
    let ⟨he', hnot⟩ := h.unlocked e he hlock
    ⟨he', fun hin => hnot (hsub e he' hin)⟩⟩

omit [DecidableEq Address] in
theorem marked_markEntry (hentry : entry ∈ s.m_receive_requests.m_entries) :
    Marked (fun e => e.id = entry.id) s (markEntry store s entry) := by
  unfold markEntry
  split
  · rename_i hlock
    refine ⟨rfl, rfl, id, fun e he hunlocked => ⟨he, fun hid => ?_⟩⟩
    have hsame : e = entry := ReceiveRequestHistoryModel.eq_of_id he hentry hid
    rw [hsame, hlock] at hunlocked
    cases hunlocked
  · refine ⟨rfl, names_prependOrReplace ⟨entry, hentry, rfl⟩, fun h => h.mark hentry _, ?_⟩
    intro e he hunlocked
    rcases ReceiveRequestHistoryModel.mem_prependOrReplace.mp he with rfl | ⟨he, hne⟩
    · cases hunlocked
    · exact ⟨he, hne⟩

omit [DecidableEq Address] in
theorem mem_markEntry (hother : other ∈ s.m_receive_requests.m_entries) (hne : other.id ≠ entry.id) :
    other ∈ (markEntry store s entry).m_receive_requests.m_entries := by
  unfold markEntry
  split
  · exact hother
  · exact ReceiveRequestHistoryModel.mem_prependOrReplace.mpr (.inr ⟨hother, hne⟩)

omit [DecidableEq Address] in
theorem marked_entries {l : List (QmlRecentRequestEntry Address)} (hl : (l.map (·.id)).Nodup)
    (hin : ∀ entry ∈ l, entry ∈ s.m_receive_requests.m_entries) :
    Marked (fun e => e.id ∈ l.map (·.id)) s (l.foldl (markEntry store) s) := by
  induction l generalizing s with
  | nil => exact Marked.refl.mono fun e _ h => (List.not_mem_nil h).elim
  | cons entry l ih =>
    rw [List.map_cons, List.nodup_cons] at hl
    have hentry : Marked _ s (markEntry store s entry) := marked_markEntry (hin entry List.mem_cons_self)
    have hrest := ih (s := markEntry store s entry) hl.2 fun other hother =>
      mem_markEntry (hin other (List.mem_cons_of_mem _ hother))
        fun hid => hl.1 (hid ▸ List.mem_map_of_mem hother)
    exact (hentry.trans hrest).mono fun e _ h => List.mem_cons.mp h

theorem marked_markReceiveRequestPayment {address : Address} :
    Marked (fun e => e.address = address) s (markReceiveRequestPayment store s address) := by
  unfold markReceiveRequestPayment
  have hnodup : ((s.m_receive_requests.entriesForAddress address).map (·.id)).Nodup :=
    s.m_receive_requests.nodup.sublist (List.filter_sublist.map _)
  refine (marked_entries hnodup fun entry hentry =>
    (ReceiveRequestHistoryModel.mem_entriesForAddress.mp hentry).1).mono fun e he haddress => ?_
  exact List.mem_map_of_mem (ReceiveRequestHistoryModel.mem_entriesForAddress.mpr ⟨he, haddress⟩)

theorem marked_addresses {l : List Address} :
    Marked (fun e => e.address ∈ l) s (l.foldl (markReceiveRequestPayment store) s) := by
  induction l generalizing s with
  | nil => exact Marked.refl.mono fun e _ h => (List.not_mem_nil h).elim
  | cons address l ih =>
    refine (marked_markReceiveRequestPayment.trans ih).mono fun e _ h => List.mem_cons.mp h

/-! ## Sound payments -/

section Sound

variable {wallet : Wallet Address} {A : Finset Address} {p : ReceivePayments Address}
  {U U' : Finset Txid} {N N' : Set Txid} {txid : Txid}

/-- What the wallet says of a transaction. -/
def truth (wallet : Wallet Address) (A : Finset Address) (txid : Txid) : Record Address :=
  (wallet txid).bind fun w => (scanReceiveRequestTransaction w.1 w.2 A).record

structure Sound (wallet : Wallet Address) (A : Finset Address) (p : ReceivePayments Address)
    (U : Finset Txid) (N : Set Txid) : Prop where
  wf : p.WF
  recorded : ∀ txid ∉ N, ∀ r, p.record txid = some r → ∃ w, wallet txid = some w ∧
    (receivedOf A w.1).isEmpty = false ∧ r.1 = receivedOf A w.1
  exact : ∀ txid ∉ N, txid ∉ U → p.record txid = truth wallet A txid

theorem Sound.mono (h : Sound wallet A p U N) (hU : U ⊆ U') (hN : N ⊆ N') : Sound wallet A p U' N' where
  wf := h.wf
  recorded txid hnot := h.recorded txid fun hin => hnot (hN hin)
  exact txid hnot huninspected := h.exact txid (fun hin => hnot (hN hin)) fun hin => huninspected (hU hin)

theorem recorded_of_truth {r : Payment Address × Bool} (h : truth wallet A txid = some r) :
    ∃ w, wallet txid = some w ∧ (receivedOf A w.1).isEmpty = false ∧ r.1 = receivedOf A w.1 := by
  unfold truth at h
  obtain ⟨w, hw, hr⟩ := Option.bind_eq_some_iff.mp h
  rw [record_scan] at hr
  split at hr
  · cases hr
  · rename_i hcond
    rw [Bool.or_eq_true, not_or] at hcond
    exact ⟨w, hw, Bool.not_eq_true _ ▸ hcond.1, (Option.some.inj hr) ▸ rfl⟩

theorem truth_of_inactive (h : inactiveNow wallet txid = true) : truth wallet A txid = none := by
  unfold inactiveNow getWalletTxDetails at h
  unfold truth
  cases hw : wallet txid with
  | none => rfl
  | some w =>
    rw [hw] at h
    rw [Option.bind_some, record_scan, if_pos]
    rw [Bool.or_eq_true]
    exact .inr (by simpa using h)

theorem Sound.remove (h : Sound wallet A p U N) :
    Sound wallet A (p.remove txid) U (insert txid N) where
  wf := h.wf.remove
  recorded other hnot r hr := by
    rw [Set.mem_insert_iff, not_or] at hnot
    rw [ReceivePayments.record_remove, if_neg hnot.1] at hr
    exact h.recorded other hnot.2 r hr
  exact other hnot huninspected := by
    rw [Set.mem_insert_iff, not_or] at hnot
    rw [ReceivePayments.record_remove, if_neg hnot.1]
    exact h.exact other hnot.2 huninspected

theorem Sound.settle (h : Sound wallet A p U (insert txid N)) (heq : p.record txid = truth wallet A txid) :
    Sound wallet A p (U \ {txid}) N where
  wf := h.wf
  recorded other hnot r hr := by
    by_cases hother : other = txid
    · subst hother
      exact recorded_of_truth (heq ▸ hr)
    · exact h.recorded other (fun hin => hin.elim hother hnot) r hr
  exact other hnot huninspected := by
    by_cases hother : other = txid
    · rw [hother, heq]
    · refine h.exact other (fun hin => hin.elim hother hnot) fun hin => huninspected ?_
      exact Finset.mem_sdiff.mpr ⟨hin, by simpa using hother⟩

theorem Sound.skip (h : Sound wallet A p U N) (hin : txid ∈ N) : Sound wallet A p (U \ {txid}) N where
  wf := h.wf
  recorded := h.recorded
  exact other hnot huninspected := by
    refine h.exact other hnot fun hother => huninspected (Finset.mem_sdiff.mpr ⟨hother, ?_⟩)
    rw [Finset.mem_singleton]
    exact fun heq => hnot (heq ▸ hin)

theorem Sound.removeGone (h : Sound wallet A p U N) (hgone : truth wallet A txid = none) :
    Sound wallet A (p.remove txid) (U \ {txid}) N := by
  refine h.remove.settle ?_
  rw [ReceivePayments.record_remove, if_pos rfl, hgone]

theorem Sound.add {w : WalletTx Address × WalletTxStatus} (h : Sound wallet A p U (insert txid N))
    (hnone : p.record txid = none) (hw : wallet txid = some w) :
    Sound wallet A (p.add txid (scanReceiveRequestTransaction w.1 w.2 A)) (U \ {txid}) N := by
  refine Sound.settle ⟨h.wf.add hnone proper_scan, fun other hnot r hr => ?_,
    fun other hnot huninspected => ?_⟩ ?_
  · have hne : other ≠ txid := fun heq => hnot (.inl heq)
    rw [ReceivePayments.record_add hnone h.wf, if_neg hne] at hr
    exact h.recorded other hnot r hr
  · have hne : other ≠ txid := fun heq => hnot (.inl heq)
    rw [ReceivePayments.record_add hnone h.wf, if_neg hne]
    exact h.exact other hnot huninspected
  · rw [ReceivePayments.record_add hnone h.wf, if_pos rfl]
    unfold truth
    rw [hw, Option.bind_some]

end Sound

/-! ## Updates -/

section Updates

variable {N N' : Set Txid} {V : Finset Txid} {txid : Txid} {told : Txid × Bool}

/-- Only payments, locks and inspections change. -/
structure Touched (s s' : System Address) : Prop where
  frame : s' = { s with
    stored := s'.stored
    m_receive_requests := s'.m_receive_requests
    payments := s'.payments
    m_receive_payment_revision := s'.m_receive_payment_revision
    uninspected := s'.uninspected }
  names : s'.m_receive_requests.names = s.m_receive_requests.names
  agree : Agree s.stored s.m_receive_requests → Agree s'.stored s'.m_receive_requests
  unlocked : ∀ e ∈ s'.m_receive_requests.m_entries, e.payment_received = false →
    e ∈ s.m_receive_requests.m_entries
  revision : s.m_receive_payment_revision ≤ s'.m_receive_payment_revision

omit [DecidableEq Address] in
theorem Touched.refl : Touched s s := ⟨rfl, rfl, id, fun _ h _ => h, le_refl _⟩

omit [DecidableEq Address] in
theorem Touched.trans (h : Touched s s') (h' : Touched s' s'') : Touched s s'' where
  frame := by
    rw [h'.frame, h.frame]
  names := h'.names.trans h.names
  agree := h'.agree ∘ h.agree
  unlocked e he hlock := h.unlocked e (h'.unlocked e he hlock) hlock
  revision := h.revision.trans h'.revision

theorem touched_remove : Touched s (removeReceiveRequestPayment s txid) :=
  ⟨rfl, rfl, id, fun _ h _ => h, Nat.le_succ _⟩

omit [DecidableEq Address] in
theorem touched_inspect : Touched s (inspect s V) := ⟨rfl, rfl, id, fun _ h _ => h, le_refl _⟩

omit [DecidableEq Address] in
theorem Marked.touched (h : Marked marked s s') : Touched s s' where
  frame := by rw [h.frame]
  names := h.names
  agree := h.agree
  unlocked e he hlock := (h.unlocked e he hlock).1
  revision := by rw [h.frame]

theorem touched_record {details : Option (WalletTx Address) × WalletTxStatus} :
    Touched s (recordReceiveRequestPayment store s txid details) := by
  unfold recordReceiveRequestPayment
  obtain ⟨_ | tx, status⟩ := details
  · exact .refl
  · have hmarked : Marked _ (removeReceiveRequestPayment s txid)
      ((ownAddresses tx).foldl (markReceiveRequestPayment store) (removeReceiveRequestPayment s txid)) :=
      marked_addresses
    refine (touched_remove.trans hmarked.touched).trans ⟨rfl, rfl, id, fun _ h _ => h, ?_⟩
    dsimp only
    split
    · exact le_refl _
    · exact Nat.le_succ _

theorem touched_recheckOne : Touched s (recheckOne s txid) := by
  unfold recheckOne
  split
  · exact touched_remove.trans touched_inspect
  · exact .refl

theorem touched_recheck : Touched s (recheckReceiveRequestPayments s txid) := by
  unfold recheckReceiveRequestPayments
  generalize (relatedTxids s.payments.payments txid).sort (· ≤ ·) = l
  induction l generalizing s with
  | nil => exact .refl
  | cons other l ih => exact touched_recheckOne.trans ih

theorem touched_update : Touched s (updateTransaction store s told) := by
  unfold updateTransaction
  dsimp only
  split
  · exact touched_remove.trans touched_inspect
  · exact ((touched_remove.trans touched_record).trans touched_recheck).trans touched_inspect

/-- The payments of the state are sound, apart from `V` where nothing needs to be inspected. -/
def SoundState (s : System Address) (V : Finset Txid) (N : Set Txid) : Prop :=
  Sound s.wallet s.m_receive_request_addresses s.payments (s.uninspected \ V) N

theorem SoundState.remove (h : SoundState s V N) :
    SoundState (removeReceiveRequestPayment s txid) V (insert txid N) :=
  Sound.remove h

theorem SoundState.record (h : SoundState s V (insert txid N))
    (hnone : s.payments.record txid = none) :
    SoundState (recordReceiveRequestPayment store s txid (getWalletTxDetails s.wallet txid))
      (insert txid V) N := by
  have hsub : (s.uninspected \ V) \ {txid} ⊆ s.uninspected \ insert txid V := by
    intro other hother
    simp only [Finset.mem_sdiff, Finset.mem_insert, Finset.mem_singleton] at hother ⊢
    tauto
  unfold getWalletTxDetails
  cases hw : s.wallet txid with
  | none =>
    refine (Sound.settle h ?_).mono hsub fun _ => id
    rw [hnone, truth, hw, Option.bind_none]
  | some w =>
    unfold recordReceiveRequestPayment
    have hmarked : Marked _ (removeReceiveRequestPayment s txid)
      ((ownAddresses w.1).foldl (markReceiveRequestPayment store) (removeReceiveRequestPayment s txid)) :=
      marked_addresses
    dsimp only
    generalize (ownAddresses w.1).foldl _ _ = s' at hmarked ⊢
    have hremoved : Sound s.wallet s.m_receive_request_addresses (s.payments.remove txid)
        (s.uninspected \ V) (insert txid N) :=
      (Sound.remove h).mono (Finset.Subset.refl _) (by simp)
    unfold SoundState
    rw [hmarked.frame]
    refine (hremoved.add ?_ hw).mono hsub fun _ => id
    rw [ReceivePayments.record_remove, if_pos rfl]

theorem SoundState.recheckOne (h : SoundState s V N) : SoundState (recheckOne s txid) V N := by
  unfold GuiQml.Receive.recheckOne
  split
  · rename_i hinactive
    refine (Sound.removeGone h (truth_of_inactive hinactive)).mono (fun other hother => ?_) fun _ => id
    simp only [inspect, removeReceiveRequestPayment, Finset.mem_sdiff] at hother ⊢
    tauto
  · exact h

theorem SoundState.recheck (h : SoundState s V N) :
    SoundState (recheckReceiveRequestPayments s txid) V N := by
  unfold recheckReceiveRequestPayments
  generalize (relatedTxids s.payments.payments txid).sort (· ≤ ·) = l
  induction l generalizing s with
  | nil => exact h
  | cons other l ih => exact ih h.recheckOne

/-- Addresses that a transaction of the wallet pays, unless it is still to be told. -/
def Pays (wallet : Wallet Address) (N : Set Txid) (address : Address) : Prop :=
  ∃ txid ∉ N, ∃ w, wallet txid = some w ∧ address ∈ ownAddresses w.1

def Locked (shown : ReceiveRequestHistoryModel Address) (due : Address → Prop) : Prop :=
  ∀ e ∈ shown.m_entries, e.payment_received = false → ¬due e.address

/-- The update of a transaction settles it, unless the wallet has more to tell of it. -/
theorem SoundState.update (h : SoundState s ∅ N)
    (hdeleted : told.2 = true → told.1 ∈ N' ∨ s.wallet told.1 = none)
    (hN : N ⊆ insert told.1 N') : SoundState (updateTransaction store s told) ∅ N' := by
  have hremoved : SoundState (removeReceiveRequestPayment s told.1) ∅ (insert told.1 N') :=
    h.remove.mono le_rfl (Set.insert_subset (Set.mem_insert _ _) hN)
  have hnone : (removeReceiveRequestPayment s told.1).payments.record told.1 = none := by
    rw [removeReceiveRequestPayment, ReceivePayments.record_remove, if_pos rfl]
  have hinspect : ∀ {s' : System Address}, SoundState s' {told.1} N' →
      SoundState (inspect s' {told.1}) ∅ N' := fun h =>
    Sound.mono h (fun other hother => by simpa [inspect] using hother) fun _ => id
  unfold updateTransaction
  dsimp only
  split
  · rename_i hflag
    refine hinspect ?_
    rcases hdeleted hflag with hin | hgone
    · rw [Set.insert_eq_of_mem hin] at hremoved
      exact (Sound.skip hremoved hin).mono (by simp) fun _ => id
    · refine (Sound.settle hremoved ?_).mono ?_ fun _ => id
      · rw [hnone, truth, removeReceiveRequestPayment, hgone, Option.bind_none]
      · simp
  · refine hinspect (SoundState.recheck ?_)
    exact hremoved.record hnone

theorem unlocked_record {w : WalletTx Address × WalletTxStatus} (hw : s.wallet txid = some w)
    (hentry : entry ∈ (recordReceiveRequestPayment store s txid
      (getWalletTxDetails s.wallet txid)).m_receive_requests.m_entries)
    (hlock : entry.payment_received = false) : entry.address ∉ ownAddresses w.1 := by
  unfold getWalletTxDetails at hentry
  rw [hw] at hentry
  have hmarked : Marked _ (removeReceiveRequestPayment s txid)
    ((ownAddresses w.1).foldl (markReceiveRequestPayment store) (removeReceiveRequestPayment s txid)) :=
    marked_addresses
  exact (hmarked.unlocked entry hentry hlock).2

theorem Locked.update (h : Locked s.m_receive_requests (Pays s.wallet N))
    (hdeleted : told.2 = true → told.1 ∈ N' ∨ s.wallet told.1 = none) (hN : N ⊆ insert told.1 N') :
    Locked (updateTransaction store s told).m_receive_requests (Pays s.wallet N') := by
  rintro e he hlock ⟨txid, hnot, w, hw, hown⟩
  have hold := touched_update.unlocked e he hlock
  by_cases hin : txid ∈ N
  · obtain rfl : txid = told.1 := (hN hin).resolve_right hnot
    have hflag : told.2 = false := by
      cases hflag : told.2 with
      | false => rfl
      | true =>
        rcases hdeleted hflag with hin' | hgone
        · exact absurd hin' hnot
        · rw [hw] at hgone
          cases hgone
    unfold updateTransaction at he
    rw [hflag] at he
    have hrecord := (touched_recheck.trans touched_inspect).unlocked e he hlock
    exact unlocked_record (s := removeReceiveRequestPayment s told.1) hw hrecord hlock hown
  · exact h e hold hlock ⟨txid, hin, w, hw, hown⟩

theorem SoundState.replay {l : List (Txid × Bool)} (h : SoundState s ∅ (N' ∪ {txid | txid ∈ l.map (·.1)}))
    (hlocked : Locked s.m_receive_requests (Pays s.wallet (N' ∪ {txid | txid ∈ l.map (·.1)})))
    (hdeleted : ∀ told ∈ l, told.2 = true → told.1 ∈ N' ∨ s.wallet told.1 = none) :
    SoundState (l.foldl (updateTransaction store) s) ∅ N' ∧
      Locked (l.foldl (updateTransaction store) s).m_receive_requests (Pays s.wallet N') ∧
      Touched s (l.foldl (updateTransaction store) s) := by
  induction l generalizing s with
  | nil => exact ⟨by simpa using h, by simpa using hlocked, .refl⟩
  | cons told l ih =>
    have htouched : Touched s (updateTransaction store s told) := touched_update
    have hwallet : (updateTransaction store s told).wallet = s.wallet := by rw [htouched.frame]
    have hrest : N' ∪ {txid | txid ∈ (told :: l).map (·.1)} ⊆
        insert told.1 (N' ∪ {txid | txid ∈ l.map (·.1)}) := by
      rintro txid (hin | hin)
      · exact .inr (.inl hin)
      · rcases List.mem_cons.mp hin with rfl | hin
        · exact .inl rfl
        · exact .inr (.inr hin)
    have htold := fun hflag => (hdeleted told List.mem_cons_self hflag).imp_left
      fun hin => Set.mem_union_left {txid | txid ∈ l.map (·.1)} hin
    obtain ⟨hsound, hlock, hframe⟩ := ih (s := updateTransaction store s told) (h.update htold hrest)
      (hwallet ▸ hlocked.update htold hrest)
      fun other hother => hwallet ▸ hdeleted other (List.mem_cons_of_mem _ hother)
    exact ⟨hsound, hwallet ▸ hlock, htouched.trans hframe⟩

end Updates

end Facts

end GuiQml.Receive
