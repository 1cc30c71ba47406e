import GuiQml.Receive.Pages
import GuiQml.Receive.Sound

/-!
# A paid request does not change
-/

namespace GuiQml.Receive

variable {Address : Type} {e e' e'' entry : QmlRecentRequestEntry Address}
  {requests requests' : ReceiveRequestHistoryModel Address} {held : HeldRequest Address}
  {p p' p'' : Pages Address} {id : Int}

/-! ## Locked entries -/

/-- The later entry is locked and asks for what the earlier one asks for. -/
structure Frozen (e e' : QmlRecentRequestEntry Address) : Prop where
  id : e'.id = e.id
  address : e'.address = e.address
  amount : e'.amount = e.amount
  label : e'.label = e.label
  message : e'.message = e.message
  payment_received : e'.payment_received = true

theorem Frozen.refl (h : e.payment_received = true) : Frozen e e := ⟨rfl, rfl, rfl, rfl, rfl, h⟩

theorem Frozen.trans (h : Frozen e e') (h' : Frozen e' e'') : Frozen e e'' where
  id := h'.id.trans h.id
  address := h'.address.trans h.address
  amount := h'.amount.trans h.amount
  label := h'.label.trans h.label
  message := h'.message.trans h.message
  payment_received := h'.payment_received

structure Shows (held : HeldRequest Address) (e : QmlRecentRequestEntry Address) : Prop where
  m_amount : held.m_amount = e.amount
  m_label : held.m_label = e.label
  m_message : held.m_message = e.message

theorem Shows.frozen (h : Shows held e) (h' : Frozen e e') : Shows held e' where
  m_amount := h.m_amount.trans h'.amount.symm
  m_label := h.m_label.trans h'.label.symm
  m_message := h.m_message.trans h'.message.symm

/-- A page that holds a paid request shows it. -/
def ShowsPaid (requests : ReceiveRequestHistoryModel Address) (held : HeldRequest Address) : Prop :=
  ∀ e ∈ requests.m_entries, held.m_id = some e.id → e.payment_received = true → Shows held e

theorem ShowsPaid.none (h : held.m_id = none) : ShowsPaid requests held := by
  intro e _ hid
  rw [h] at hid
  cases hid

theorem ShowsPaid.write (h : ShowsPaid requests held)
    (hlocked : entry.payment_received = true → ∃ e ∈ requests.m_entries,
      e.payment_received = true ∧ Frozen e entry) :
    ShowsPaid (requests.prependOrReplace entry) held := by
  intro e he hid hpaid
  rcases ReceiveRequestHistoryModel.mem_prependOrReplace.mp he with rfl | ⟨he, -⟩
  · obtain ⟨old, hold, hold_paid, hfrozen⟩ := hlocked hpaid
    exact (h old hold (hid.trans (congrArg some hfrozen.id)) hold_paid).frozen hfrozen
  · exact h e he hid hpaid

theorem ShowsPaid.lock (h : ShowsPaid requests held) :
    ShowsPaid (requests.prependOrReplace entry) (held.lock entry) := by
  intro e he hid hpaid
  unfold HeldRequest.lock at hid ⊢
  rcases ReceiveRequestHistoryModel.mem_prependOrReplace.mp he with rfl | ⟨he, hne⟩
  · split at hid
    next hheld =>
      rw [if_pos hheld]
      exact ⟨rfl, rfl, rfl⟩
    next hheld => exact absurd hid hheld
  · split at hid
    next hheld => exact absurd (Option.some.inj (hid.symm.trans hheld)) hne
    next hheld =>
      rw [if_neg hheld]
      exact h e he hid hpaid

theorem ShowsPaid.load (h : ShowsPaid requests held) (isValid : Address → Bool) :
    ShowsPaid requests (held.load isValid requests id).1 := by
  unfold HeldRequest.load
  split
  · exact h
  next found hfound =>
    split
    · exact h
    · intro e he hid _
      obtain ⟨hin, -⟩ := ReceiveRequestHistoryModel.entryById_eq_some.mp hfound
      obtain rfl : found = e :=
        ReceiveRequestHistoryModel.eq_of_id hin he (Option.some.inj hid)
      exact ⟨rfl, rfl, rfl⟩

theorem ShowsPaid.remove (h : ShowsPaid requests held) (request_id : Int) :
    ShowsPaid (requests.removeByRequestId request_id) held := fun e he =>
  h e (ReceiveRequestHistoryModel.mem_removeByRequestId.mp he).1

theorem ShowsPaid.congr (h : ShowsPaid requests held) {held' : HeldRequest Address}
    (hid : held'.m_id = held.m_id) (hamount : held'.m_amount = held.m_amount)
    (hlabel : held'.m_label = held.m_label) (hmessage : held'.m_message = held.m_message) :
    ShowsPaid requests held' := by
  intro e he heq hpaid
  have hshows := h e he (hid ▸ heq) hpaid
  exact ⟨hamount.trans hshows.m_amount, hlabel.trans hshows.m_label, hmessage.trans hshows.m_message⟩

/-! ## What every operation does -/

namespace Pages

/-- What is locked under the id stays so, with what is written for it, and is shown where it is held. -/
structure Safe (id : Int) (p p' : Pages Address) : Prop where
  entry : ∀ e ∈ p.system.m_receive_requests.m_entries, e.id = id → e.payment_received = true →
    ∃ e' ∈ p'.system.m_receive_requests.m_entries, Frozen e e'
  written : ∃ new, p'.written = p.written ++ new ∧ ∀ blob ∈ new, blob.id = id →
    ∀ e ∈ p.system.m_receive_requests.m_entries, e.id = id → e.payment_received = true → Frozen e blob
  current : ShowsPaid p.system.m_receive_requests p.m_current_payment_request →
    ShowsPaid p'.system.m_receive_requests p'.m_current_payment_request
  detail : ShowsPaid p.system.m_receive_requests p.m_detail_payment_request →
    ShowsPaid p'.system.m_receive_requests p'.m_detail_payment_request

theorem Safe.trans (h : Safe id p p') (h' : Safe id p' p'') : Safe id p p'' where
  entry e he hid hpaid := by
    obtain ⟨e', he', hfrozen⟩ := h.entry e he hid hpaid
    obtain ⟨e'', he'', hfrozen'⟩ := h'.entry e' he' (hfrozen.id.trans hid) hfrozen.payment_received
    exact ⟨e'', he'', hfrozen.trans hfrozen'⟩
  written := by
    obtain ⟨new, hnew, hblobs⟩ := h.written
    obtain ⟨new', hnew', hblobs'⟩ := h'.written
    refine ⟨new ++ new', by rw [hnew', hnew, List.append_assoc], ?_⟩
    intro blob hblob hblob_id e he hid hpaid
    rcases List.mem_append.mp hblob with hblob | hblob
    · exact hblobs blob hblob hblob_id e he hid hpaid
    · obtain ⟨e', he', hfrozen⟩ := h.entry e he hid hpaid
      exact hfrozen.trans
        (hblobs' blob hblob hblob_id e' he' (hfrozen.id.trans hid) hfrozen.payment_received)
  current hshows := h'.current (h.current hshows)
  detail hshows := h'.detail (h.detail hshows)

theorem Safe.same (hrequests : p'.system.m_receive_requests = p.system.m_receive_requests)
    (hwritten : p'.written = p.written)
    (hcurrent : ShowsPaid p.system.m_receive_requests p.m_current_payment_request →
      ShowsPaid p.system.m_receive_requests p'.m_current_payment_request)
    (hdetail : ShowsPaid p.system.m_receive_requests p.m_detail_payment_request →
      ShowsPaid p.system.m_receive_requests p'.m_detail_payment_request) : Safe id p p' where
  entry e he _ hpaid := ⟨e, by rw [hrequests]; exact he, .refl hpaid⟩
  written := ⟨[], by rw [hwritten, List.append_nil], fun _ hblob => nomatch hblob⟩
  current := by rw [hrequests]; exact hcurrent
  detail := by rw [hrequests]; exact hdetail

theorem Safe.refl (p : Pages Address) : Safe id p p := .same rfl rfl (fun h => h) fun h => h

theorem Safe.system {s' : System Address}
    (hrequests : s'.m_receive_requests = p.system.m_receive_requests) :
    Safe id p { p with system := s' } := .same hrequests rfl (fun h => h) fun h => h

theorem Safe.andSystem (h : Safe id p p') {s' : System Address}
    (hrequests : s'.m_receive_requests = p'.system.m_receive_requests) :
    Safe id p { p' with system := s' } := h.trans (.system hrequests)

theorem Safe.write (hrequests : p'.system.m_receive_requests =
      p.system.m_receive_requests.prependOrReplace entry)
    (hwritten : p'.written = p.written ∨ p'.written = p.written ++ [entry])
    (hover : ∀ e ∈ p.system.m_receive_requests.m_entries, e.id = entry.id →
      e.payment_received = true → Frozen e entry)
    (hcurrent : ShowsPaid p.system.m_receive_requests p.m_current_payment_request →
      ShowsPaid (p.system.m_receive_requests.prependOrReplace entry) p'.m_current_payment_request)
    (hdetail : ShowsPaid p.system.m_receive_requests p.m_detail_payment_request →
      ShowsPaid (p.system.m_receive_requests.prependOrReplace entry) p'.m_detail_payment_request) :
    Safe id p p' where
  entry e he _ hpaid := by
    rw [hrequests]
    by_cases hid : e.id = entry.id
    · exact ⟨entry, ReceiveRequestHistoryModel.mem_prependOrReplace.mpr (.inl rfl), hover e he hid hpaid⟩
    · exact ⟨e, ReceiveRequestHistoryModel.mem_prependOrReplace.mpr (.inr ⟨he, hid⟩), .refl hpaid⟩
  written := by
    rcases hwritten with hwritten | hwritten
    · exact ⟨[], by rw [hwritten, List.append_nil], fun _ hblob => nomatch hblob⟩
    · refine ⟨[entry], hwritten, fun blob hblob hblob_id e he hid hpaid => ?_⟩
      obtain rfl := List.mem_singleton.mp hblob
      exact hover e he (hid.trans hblob_id.symm) hpaid
  current := by rw [hrequests]; exact hcurrent
  detail := by rw [hrequests]; exact hdetail

/-! ## Marking -/

section

variable {store : Int → Bool}

theorem safe_markEntry (hentry : entry ∈ p.system.m_receive_requests.m_entries) :
    Safe id p (markEntry store p entry) := by
  unfold markEntry
  split
  · exact .refl p
  next hunpaid =>
    have hrequests : (Receive.markEntry store p.system entry).m_receive_requests =
        p.system.m_receive_requests.prependOrReplace { entry with payment_received := true } := by
      unfold Receive.markEntry
      rw [if_neg hunpaid]
    refine .write hrequests ?_ ?_ ShowsPaid.lock ShowsPaid.lock
    · dsimp only
      split
      · exact .inr rfl
      · exact .inl rfl
    · intro e he hid hpaid
      -- the only entry of the id is the one that is marked
      obtain rfl : e = entry := ReceiveRequestHistoryModel.eq_of_id he hentry hid
      exact absurd hpaid hunpaid

theorem mem_markEntry_of_ne {other : QmlRecentRequestEntry Address}
    (hother : other ∈ p.system.m_receive_requests.m_entries) (hne : other.id ≠ entry.id) :
    other ∈ (markEntry store p entry).system.m_receive_requests.m_entries := by
  unfold markEntry
  split
  · exact hother
  · exact mem_markEntry hother hne

end

/-- Entries of different ids are worked through, each as it was found at the start. -/
theorem Safe.entries {f : Pages Address → QmlRecentRequestEntry Address → Pages Address}
    (hsafe : ∀ p, ∀ x ∈ p.system.m_receive_requests.m_entries, Safe id p (f p x))
    (hrest : ∀ p x, ∀ other ∈ p.system.m_receive_requests.m_entries, other.id ≠ x.id →
      other ∈ (f p x).system.m_receive_requests.m_entries) {l : List (QmlRecentRequestEntry Address)}
    (hl : (l.map (·.id)).Nodup) (hin : ∀ x ∈ l, x ∈ p.system.m_receive_requests.m_entries) :
    Safe id p (l.foldl f p) := by
  induction l generalizing p with
  | nil => exact .refl p
  | cons x l ih =>
    rw [List.map_cons, List.nodup_cons] at hl
    refine (hsafe p x (hin x List.mem_cons_self)).trans (ih hl.2 fun other hother => ?_)
    exact hrest p x other (hin other (List.mem_cons_of_mem _ hother))
      fun hid => hl.1 (hid ▸ List.mem_map_of_mem hother)

theorem Safe.foldl {β : Type*} {f : Pages Address → β → Pages Address} (hsafe : ∀ p x, Safe id p (f p x))
    (l : List β) (p : Pages Address) : Safe id p (l.foldl f p) := by
  induction l generalizing p with
  | nil => exact .refl p
  | cons x l ih => exact (hsafe p x).trans (ih _)

variable [DecidableEq Address] {store : Int → Bool} {isValid : Address → Bool}

theorem Safe.entriesForAddress {f : Pages Address → QmlRecentRequestEntry Address → Pages Address}
    (hsafe : ∀ p, ∀ x ∈ p.system.m_receive_requests.m_entries, Safe id p (f p x))
    (hrest : ∀ p x, ∀ other ∈ p.system.m_receive_requests.m_entries, other.id ≠ x.id →
      other ∈ (f p x).system.m_receive_requests.m_entries) (address : Address) :
    Safe id p ((p.system.m_receive_requests.entriesForAddress address).foldl f p) :=
  .entries hsafe hrest (p.system.m_receive_requests.nodup.sublist (List.filter_sublist.map _))
    fun _ hx => (ReceiveRequestHistoryModel.mem_entriesForAddress.mp hx).1

theorem safe_markReceiveRequestPayment (address : Address) :
    Safe id p (markReceiveRequestPayment store p address) :=
  .entriesForAddress (fun _ _ => safe_markEntry) (fun _ _ _ => mem_markEntry_of_ne) address

theorem safe_addresses (l : List Address) : Safe id p (l.foldl (markReceiveRequestPayment store) p) :=
  .foldl (fun _ => safe_markReceiveRequestPayment) l p

theorem safe_recordReceiveRequestPayment (txid : Txid)
    (details : Option (WalletTx Address) × WalletTxStatus) :
    Safe id p (recordReceiveRequestPayment store p txid details) := by
  unfold recordReceiveRequestPayment
  split
  · exact .refl p
  · refine Safe.andSystem ?_ rfl
    refine Safe.trans ?_ (safe_addresses _)
    exact .system rfl

theorem recheckReceiveRequestPayments_requests (s : System Address) (txid : Txid) :
    (recheckReceiveRequestPayments s txid).m_receive_requests = s.m_receive_requests := by
  have hfold : ∀ (l : List Txid) (s : System Address),
      (l.foldl recheckOne s).m_receive_requests = s.m_receive_requests := by
    intro l
    induction l with
    | nil => exact fun _ => rfl
    | cons txid l ih =>
      intro s
      refine (ih _).trans ?_
      unfold recheckOne
      split <;> rfl
  exact hfold _ s

theorem safe_updateTransaction (update : Txid × Bool) : Safe id p (updateTransaction store p update) := by
  unfold updateTransaction
  dsimp only
  split
  · exact .system rfl
  · refine Safe.andSystem (Safe.andSystem ?_ (recheckReceiveRequestPayments_requests _ _)) rfl
    refine Safe.trans ?_ (safe_recordReceiveRequestPayment _ _)
    exact .system rfl

omit [DecidableEq Address] in
theorem refreshReceiveRequestPayments_requests (s : System Address) :
    (refreshReceiveRequestPayments s).m_receive_requests = s.m_receive_requests := by
  unfold refreshReceiveRequestPayments
  split
  · rfl
  · split <;> rfl

theorem safe_applyScan (scan : Scan Address) : Safe id p (applyScan store p scan) := by
  unfold applyScan
  dsimp only
  split
  · exact .system (refreshReceiveRequestPayments_requests _)
  · refine Safe.andSystem (Safe.trans ?_ (Safe.foldl (fun _ => safe_updateTransaction) _ _)) rfl
    refine Safe.trans ?_ (safe_addresses _)
    exact .system rfl

theorem safe_deliverNotification : Safe id p (deliverNotification store p) := by
  unfold deliverNotification
  split
  · exact .refl p
  · dsimp only
    refine Safe.andSystem (Safe.trans ?_ (safe_updateTransaction _)) rfl
    split
    · exact .system rfl
    · exact .refl p

/-! ## Saving -/

section

variable {request : PaymentRequest Address}

theorem frozen_of_mayReplace (h : mayReplace e request = true) (hpaid : e.payment_received = true) :
    Frozen e (requestEntry request e.id e.payment_received) := by
  unfold mayReplace at h
  simp only [hpaid, Bool.true_and, Bool.and_eq_true, decide_eq_true_eq, Bool.not_eq_eq_eq_not,
    Bool.not_true, Bool.or_eq_false_iff, decide_eq_false_iff_not, ne_eq, Decidable.not_not] at h
  obtain ⟨haddress, ⟨hamount, hlabel⟩, hmessage⟩ := h
  exact ⟨rfl, haddress, hamount, hlabel, hmessage, hpaid⟩

/-- A save writes its entry over what is locked. -/
structure Saves (s s' : System Address) (request : PaymentRequest Address)
    (entry : QmlRecentRequestEntry Address) : Prop where
  saved : savedEntry s request = some entry
  requests : s'.m_receive_requests = s.m_receive_requests.prependOrReplace entry
  overwrites : Fresh s request.id → ∀ e ∈ s.m_receive_requests.m_entries, e.id = entry.id →
    e.payment_received = true → Frozen e entry
  locked : entry.payment_received = true → ∃ e ∈ s.m_receive_requests.m_entries,
    e.payment_received = true ∧ Frozen e entry

theorem savePaymentRequest_cases (store : Int → Bool) (s : System Address)
    (request : PaymentRequest Address) :
    ((Receive.savePaymentRequest store s request).2 = false ∧
        (Receive.savePaymentRequest store s request).1 = s) ∨
      (Receive.savePaymentRequest store s request).2 = true ∧
        ∃ entry, Saves s (Receive.savePaymentRequest store s request).1 request entry := by
  unfold Receive.savePaymentRequest
  split
  next hid =>
    unfold saveNew
    dsimp only
    split
    · exact .inl ⟨rfl, rfl⟩
    · refine .inr ⟨rfl, requestEntry request (nextPaymentRequestId s) false, ?_, rfl, ?_, by nofun⟩
      · unfold savedEntry
        rw [hid]
      · intro hfresh e he heq _
        exact absurd heq (hfresh hid e he)
  next id hid =>
    unfold saveUpdate
    split
    · exact .inl ⟨rfl, rfl⟩
    · split
      · exact .inl ⟨rfl, rfl⟩
      next existing hexisting =>
        split
        · exact .inl ⟨rfl, rfl⟩
        next hguard =>
          obtain ⟨hin, rfl⟩ := ReceiveRequestHistoryModel.entryById_eq_some.mp hexisting
          simp only [Bool.or_eq_true, not_or, Bool.not_eq_true, Bool.not_eq_eq_eq_not, Bool.not_true,
            Bool.not_eq_false] at hguard
          have hfrozen := frozen_of_mayReplace hguard.1.2
          refine .inr ⟨rfl, requestEntry request existing.id existing.payment_received, ?_, rfl, ?_, ?_⟩
          · unfold savedEntry
            rw [hid]
            simp [hexisting]
          · intro _ e he heq hpaid
            obtain rfl := ReceiveRequestHistoryModel.eq_of_id he hin heq
            exact hfrozen hpaid
          · intro hpaid
            exact ⟨existing, hin, hpaid, hfrozen hpaid⟩

theorem savePaymentRequest_result (p : Pages Address) (request : PaymentRequest Address) :
    savePaymentRequest store isValid p request = (p, none) ∨
      ∃ entry s' detail, Saves p.system s' request entry ∧
        (detail = p.m_detail_payment_request ∨
          detail = (p.m_detail_payment_request.load isValid s'.m_receive_requests entry.id).1) ∧
        savePaymentRequest store isValid p request =
          ({ p with system := s', m_detail_payment_request := detail
                    written := p.written ++ [entry] }, some entry.id) := by
  unfold savePaymentRequest
  rcases savePaymentRequest_cases store p.system request with ⟨hnot, hsame⟩ | ⟨hsaved, entry, hsaves⟩
  · dsimp only
    rw [hnot, hsame]
    exact .inl rfl
  · dsimp only
    rw [hsaved, hsaves.saved]
    dsimp only
    split
    · exact .inr ⟨entry, _, _, hsaves, .inr rfl, rfl⟩
    · exact .inr ⟨entry, _, _, hsaves, .inl rfl, rfl⟩

omit [DecidableEq Address] in
theorem Saves.safe {s' : System Address} {current detail : HeldRequest Address}
    (h : Saves p.system s' request entry) (hfresh : Fresh p.system request.id)
    (hdetail : detail = p.m_detail_payment_request ∨
      detail = (p.m_detail_payment_request.load isValid s'.m_receive_requests entry.id).1)
    (hcurrent : ShowsPaid p.system.m_receive_requests p.m_current_payment_request →
      ShowsPaid s'.m_receive_requests current) :
    Safe id p
      { system := s', m_current_payment_request := current, m_detail_payment_request := detail
        written := p.written ++ [entry] } := by
  refine .write h.requests (.inr rfl) (h.overwrites hfresh) (h.requests ▸ hcurrent) ?_
  intro hshows
  have hwritten := hshows.write h.locked
  rcases hdetail with rfl | rfl
  · exact hwritten
  · rw [h.requests]
    exact hwritten.load isValid

theorem safe_savePaymentRequest (hfresh : Fresh p.system request.id) :
    Safe id p (savePaymentRequest store isValid p request).1 := by
  rcases savePaymentRequest_result p request with heq | ⟨entry, s', detail, hsaves, hdetail, heq⟩ <;> rw [heq]
  · exact .refl p
  · exact hsaves.safe hfresh hdetail fun hshows => hsaves.requests ▸ hshows.write hsaves.locked

omit [DecidableEq Address] in
theorem shows_savedEntry {s : System Address} (h : savedEntry s request = some entry)
    (hamount : held.m_amount = request.amount) (hlabel : held.m_label = request.label)
    (hmessage : held.m_message = request.message) : Shows held entry := by
  unfold savedEntry at h
  split at h
  · obtain rfl := Option.some.inj h
    exact ⟨hamount, hlabel, hmessage⟩
  · obtain ⟨existing, -, rfl⟩ := Option.map_eq_some_iff.mp h
    exact ⟨hamount, hlabel, hmessage⟩

def withDestination (p : Pages Address) (address : Address) : Pages Address :=
  { p with m_current_payment_request :=
      { p.m_current_payment_request with m_destination := some address } }

def savedCurrent : Pages Address × Option Int → Pages Address × Bool
  | (p, some id) =>
    ({ p with m_current_payment_request :=
        { p.m_current_payment_request with m_id := some id, m_is_editing := false } }, true)
  | (p, none) => (p, false)

theorem saveCurrent_eq (address : Address) : saveCurrent store isValid p address =
    savedCurrent (savePaymentRequest store isValid (p.withDestination address)
      ((p.withDestination address).m_current_payment_request.request address)) := rfl

theorem safe_saveCurrent (hfresh : Fresh p.system p.m_current_payment_request.m_id) (address : Address) :
    Safe id p (saveCurrent store isValid p address).1 := by
  have haddressed : Safe id p (p.withDestination address) :=
    .same rfl rfl (fun hshows => hshows.congr rfl rfl rfl rfl) fun h => h
  rw [saveCurrent_eq]
  refine haddressed.trans ?_
  rcases savePaymentRequest_result (p.withDestination address)
    ((p.withDestination address).m_current_payment_request.request address) with
    heq | ⟨entry, s', detail, hsaves, hdetail, heq⟩ <;> rw [heq]
  · exact .refl _
  · refine hsaves.safe hfresh hdetail fun _ => ?_
    rw [hsaves.requests]
    intro e he hid _
    -- the editor has the fields that it saved
    rcases ReceiveRequestHistoryModel.mem_prependOrReplace.mp he with rfl | ⟨-, hne⟩
    · exact shows_savedEntry hsaves.saved rfl rfl rfl
    · exact absurd (Option.some.inj hid).symm hne

theorem safe_commitPaymentRequest (hfresh : Fresh p.system p.m_current_payment_request.m_id)
    (new_address : Option Address) : Safe id p (commitPaymentRequest store isValid p new_address).1 := by
  unfold commitPaymentRequest
  split
  · exact .refl p
  · split
    · exact .refl p
    · exact safe_saveCurrent hfresh _

theorem safe_commitReceivingPaymentRequest (hfresh : Fresh p.system p.m_current_payment_request.m_id)
    (address : Address) : Safe id p (commitReceivingPaymentRequest store isValid p address).1 := by
  unfold commitReceivingPaymentRequest
  split
  · exact .refl p
  · exact safe_saveCurrent hfresh address

omit [DecidableEq Address] in
theorem Safe.andCurrent (h : Safe id p p') {current : HeldRequest Address}
    (hshows : ShowsPaid p'.system.m_receive_requests p'.m_current_payment_request →
      ShowsPaid p'.system.m_receive_requests current) :
    Safe id p { p' with m_current_payment_request := current } :=
  h.trans (.same rfl rfl hshows fun h => h)

theorem safe_updatePaymentRequest (request_id amount : Int) (label message note : String) :
    Safe id p (updatePaymentRequest store isValid p request_id amount label message note).1 := by
  unfold updatePaymentRequest
  split
  · exact .refl p
  next found hfound =>
    split
    · exact .refl p
    · have hsafe := @safe_savePaymentRequest _ p id _ store isValid
        ⟨some request_id, found.address, label, message, note, amount⟩ (by nofun)
      split
      next p' heq => rwa [heq] at hsafe
      next p' _ heq =>
        rw [heq] at hsafe
        dsimp only
        split
        · exact hsafe.andCurrent fun hshows => ShowsPaid.load hshows isValid
        · exact hsafe

theorem removeReceiveRequest_requests (s : System Address) (request_id : Int) :
    (Receive.removeReceiveRequest store s isValid request_id).1.m_receive_requests = s.m_receive_requests ∨
      (Receive.removeReceiveRequest store s isValid request_id).1.m_receive_requests =
        s.m_receive_requests.removeByRequestId request_id := by
  unfold Receive.removeReceiveRequest
  split
  · exact .inl rfl
  · split
    · exact .inl rfl
    · exact .inr (refreshReceiveRequestPayments_requests _)

theorem safe_removeReceiveRequest {request_id : Int} (hne : request_id ≠ id) :
    Safe id p (removeReceiveRequest store isValid p request_id).1 := by
  unfold removeReceiveRequest
  rcases @removeReceiveRequest_requests _ _ store isValid p.system request_id with heq | heq
  · exact .system heq
  · constructor
    case entry =>
      intro e he hid hpaid
      refine ⟨e, ?_, .refl hpaid⟩
      dsimp only
      rw [heq]
      exact ReceiveRequestHistoryModel.mem_removeByRequestId.mpr ⟨he, fun h => hne (h.symm.trans hid)⟩
    case written => exact ⟨[], (List.append_nil _).symm, fun _ hblob => nomatch hblob⟩
    case current | detail =>
      intro hshows
      dsimp only
      rw [heq]
      exact ShowsPaid.remove hshows request_id

omit [DecidableEq Address] in
theorem safe_syncNote (label : String) (hentry : entry ∈ p.system.m_receive_requests.m_entries) :
    Safe id p (syncNote store label p entry) := by
  unfold syncNote
  split
  · exact .refl p
  next hwritten =>
    have hrequests : (Receive.syncNote store label p.system entry).m_receive_requests =
        p.system.m_receive_requests.prependOrReplace { entry with noteSelf := label } := by
      unfold Receive.syncNote
      rw [if_neg hwritten]
      rfl
    have hover : entry.payment_received = true → Frozen entry { entry with noteSelf := label } :=
      fun hpaid => ⟨rfl, rfl, rfl, rfl, rfl, hpaid⟩
    have hshown : ∀ held, ShowsPaid p.system.m_receive_requests held → ShowsPaid
        (p.system.m_receive_requests.prependOrReplace { entry with noteSelf := label }) held :=
      fun held hshows => hshows.write fun hpaid => ⟨entry, hentry, hpaid, hover hpaid⟩
    refine .write hrequests (.inr rfl) ?_ (fun hshows => ?_) (fun hshows => ?_)
    · intro e he hid hpaid
      obtain rfl : e = entry := ReceiveRequestHistoryModel.eq_of_id he hentry hid
      exact hover hpaid
    · dsimp only
      split
      · exact (hshown _ hshows).congr rfl rfl rfl rfl
      · exact hshown _ hshows
    · dsimp only
      split
      · exact (hshown _ hshows).congr rfl rfl rfl rfl
      · exact hshown _ hshows

omit [DecidableEq Address] in
theorem mem_syncNote_of_ne {label : String} {other : QmlRecentRequestEntry Address}
    (hother : other ∈ p.system.m_receive_requests.m_entries) (hne : other.id ≠ entry.id) :
    other ∈ (syncNote store label p entry).system.m_receive_requests.m_entries := by
  unfold syncNote
  split
  · exact hother
  next hwritten =>
    dsimp only
    unfold Receive.syncNote
    rw [if_neg hwritten]
    exact ReceiveRequestHistoryModel.mem_prependOrReplace.mpr (.inr ⟨hother, hne⟩)

theorem safe_setAddressLabel (labelled : Bool) (address : Address) (label : String) :
    Safe id p (setAddressLabel store p labelled address label).1 := by
  unfold setAddressLabel
  split
  · exact .refl p
  · refine Safe.trans (.system (refreshReceiveRequestPayments_requests p.system)) ?_
    exact .entriesForAddress (fun _ _ => safe_syncNote label) (fun _ _ _ => mem_syncNote_of_ne) address

end

/-! ## Runs -/

theorem safe_setCurrentPaymentRequestAddress (address : Address) (address_label : String) :
    Safe id p (setCurrentPaymentRequestAddress isValid p address address_label).1 := by
  unfold setCurrentPaymentRequestAddress
  split
  · exact .refl p
  · split
    next found rest hfound =>
      have hload : Safe id p (loadPaymentRequest isValid p found.id).1 :=
        (Safe.refl p).andCurrent fun hshows => ShowsPaid.load hshows isValid
      dsimp only
      split
      · exact hload
      · exact hload.andCurrent fun hshows => hshows.congr rfl rfl rfl rfl
    next => exact (Safe.refl p).andCurrent fun _ => .none rfl

theorem Step.safe {mayRemove : Int → Prop} (h : Step isValid mayRemove p p')
    (hkept : ∀ store request_id, mayRemove request_id →
      p' = (removeReceiveRequest store isValid p request_id).1 → request_id ≠ id) : Safe id p p' := by
  cases h with
  | save store request hfresh => exact safe_savePaymentRequest hfresh
  | commit store new_address hfresh => exact safe_commitPaymentRequest hfresh new_address
  | commitReceiving store address hfresh => exact safe_commitReceivingPaymentRequest hfresh address
  | update => exact safe_updatePaymentRequest ..
  | remove store request_id hmay => exact safe_removeReceiveRequest (hkept store request_id hmay rfl)
  | label => exact safe_setAddressLabel ..
  | record => exact safe_recordReceiveRequestPayment ..
  | deliver => exact safe_deliverNotification
  | applyScan => exact safe_applyScan _
  | load => exact (Safe.refl p).andCurrent fun hshows => ShowsPaid.load hshows isValid
  | loadDetail => exact .same rfl rfl (fun h => h) fun hshows => ShowsPaid.load hshows isValid
  | setAddress => exact safe_setCurrentPaymentRequestAddress ..
  | template request_id =>
    unfold usePaymentRequestAsTemplate
    split
    · exact .refl p
    · exact (Safe.refl p).andCurrent fun _ => .none rfl
  | edit amount label message note =>
    unfold editDraft
    dsimp only
    split
    · exact .refl p
    next hdraft =>
      refine (Safe.refl p).andCurrent fun _ => .none ?_
      simpa using hdraft
  | setIsEditing => exact (Safe.refl p).andCurrent fun hshows => hshows.congr rfl rfl rfl rfl
  | clear => exact (Safe.refl p).andCurrent fun _ => .none rfl
  | clearDetail => exact .same rfl rfl (fun h => h) fun _ => .none rfl
  | background _ hrequests => exact .system hrequests

/-- What the pages show of paid requests. -/
structure Shown (p : Pages Address) : Prop where
  current : ShowsPaid p.system.m_receive_requests p.m_current_payment_request
  detail : ShowsPaid p.system.m_receive_requests p.m_detail_payment_request

omit [DecidableEq Address] in
theorem Safe.shown (h : Safe id p p') (hshown : Shown p) : Shown p' :=
  ⟨h.current hshown.current, h.detail hshown.detail⟩

theorem Step.shown {mayRemove : Int → Prop} (h : Step isValid mayRemove p p') (hshown : Shown p) :
    Shown p' := by
  by_cases hremoves : ∃ store request_id, p' = (removeReceiveRequest store isValid p request_id).1
  · obtain ⟨store, request_id, rfl⟩ := hremoves
    have hnext : request_id ≠ request_id + 1 := by omega
    exact (safe_removeReceiveRequest hnext).shown hshown
  · have hsafe : Safe 0 p p' := h.safe fun store request_id _ heq =>
      absurd ⟨store, request_id, heq⟩ hremoves
    exact hsafe.shown hshown

variable {wallet : Wallet Address} {stored : ReceiveRequestHistoryModel Address}

theorem shown_run {mayRemove : Int → Prop} (hshown : Shown p)
    (h : Relation.ReflTransGen (Step isValid mayRemove) p p') : Shown p' := by
  induction h with
  | refl => exact hshown
  | tail _ hstep ih => exact hstep.shown ih

theorem safe_run (h : Relation.ReflTransGen (Step isValid (· ≠ id)) p p') : Safe id p p' := by
  induction h with
  | refl => exact .refl p
  | tail _ hstep ih => exact ih.trans (hstep.safe fun _ _ hne _ => hne)

end Pages

end GuiQml.Receive
