import GuiQml.Activity.Rebuild
import GuiQml.Receive.History

/-!
# Every request is accounted for

After any rebuild each transaction has its row, and each request either has a row of its own or stands in the row
of a transaction that pays it.
-/

namespace GuiQml.Rebuild

open Activity.Rows (IdRole IsPendingRequestRole Row RowMap UserRole Sorted ById)
open Interpret (TransactionAction)
open Wallet (CAmount)

variable {texts : Texts} {input : Input} {history : List Request} {address id : String}

/-! ## The history of the wallet -/

section Index

open Receive (QmlRecentRequestEntry)
open Receive.Index (Entry Event QString QtApi)
open Receive.Index.ReceiveRequestHistoryModel (Rebuilt Views addressOf idsOf indexOfId_concat setEntries
  rebuilt_setEntries)

variable {QDateTime : Type} {api : QtApi QDateTime} {view : Entry QDateTime → QmlRecentRequestEntry QString}
  {m : Receive.Index.ReceiveRequestHistoryModel QDateTime} {entryMap : Entry QDateTime → Request}
  {number : Int64 → String} {text : QString → String}

theorem map_indexOfId (hview : Views api view) (hnumber : Function.Injective number)
    (hid : ∀ entry, (entryMap entry).requestId = number entry.id) (entries : List (Entry QDateTime)) (id : Int64) :
    ((Receive.RequestRows.indexOfId id.toInt (entries.map view)).bind (entries[·]?)).map entryMap =
      entryOfId (entries.map entryMap) (number id) := by
  unfold entryOfId
  induction entries using List.reverseRecOn with
  | nil => rfl
  | append_singleton entries entry ih =>
    rw [List.map_append, List.map_singleton, indexOfId_concat, List.length_map, hview.id, List.map_append,
      List.map_singleton, List.reverse_append, List.reverse_singleton, List.singleton_append, List.find?_cons, hid]
    by_cases heq : entry.id = id
    · simp [heq]
    · have hint : entry.id.toInt ≠ id.toInt := fun h => heq (Int64.toInt_inj.mp h)
      have htext : number entry.id ≠ number id := fun h => heq (hnumber h)
      rw [if_neg hint, decide_eq_false htext, ← ih]
      cases hrow : Receive.RequestRows.indexOfId id.toInt (entries.map view) with
      | none => rfl
      | some row =>
        obtain ⟨found, hfound, -⟩ := Receive.RequestRows.indexOfId_eq_some hrow
        have hlt : row < entries.length := by
          simpa using (List.getElem?_eq_some_iff.1 hfound).1
        simp only [Option.bind_some, List.getElem?_append_left hlt]

/-- Whatever is loaded, replaced and removed, the history gives for an address what is said of its entries here. -/
theorem matchingEntriesForAddress_of_run (hview : Views api view) (hnumber : Function.Injective number)
    (htext : Function.Injective text) (hempty : text [] = "")
    (hid : ∀ entry, (entryMap entry).requestId = number entry.id)
    (haddress : ∀ entry, (entryMap entry).address = text (addressOf api entry)) (entries : List (Entry QDateTime))
    (events : List (Event QDateTime)) : ∃ m', (setEntries api m entries).run api events = .ok m' ∧
      ∀ address, m'.matchingEntriesForAddress entryMap address =
        .ok (matchingEntriesForAddress (m'.m_entries.map entryMap) (text address)) := by
  obtain ⟨m', hrun, hm', -⟩ := (rebuilt_setEntries hview m entries).run hview events
  refine ⟨m', hrun, fun address => ?_⟩
  rw [hm'.matchingEntriesForAddress hview, matchingEntriesForAddress]
  have hblank : (text address).isEmpty = address.isEmpty := by
    rw [Bool.eq_iff_iff, String.isEmpty_iff, List.isEmpty_iff, ← hempty, htext.eq_iff]
  rw [hblank]
  congr 2
  simp only [idsOf, List.filter_map, List.map_map, List.filterMap_map, Function.comp_def, haddress, htext.eq_iff, hid]
  exact List.filterMap_congr fun entry _ => map_indexOfId hview hnumber hid _ _

end Index

/-! ## The requests by address -/

theorem getElem?_requestsByAddress (history : List Request) (address : String) :
    (requestsByAddress history)[address]? =
      if address ∈ history.map Request.address then some (matchingEntriesForAddress history address) else none := by
  unfold requestsByAddress
  suffices h : ∀ (rest : List Request) (requests : Std.ExtTreeMap String (List Request)) (seen : List String),
      (∀ a, requests[a]? = if a ∈ seen then some (matchingEntriesForAddress history a) else none) →
      (rest.foldl (fun requests request => if requests.contains request.address then requests
        else requests.insert request.address (matchingEntriesForAddress history request.address)) requests)[address]? =
      if address ∈ seen ++ rest.map Request.address then some (matchingEntriesForAddress history address) else none by
    exact h history ∅ [] (by simp)
  intro rest
  induction rest with
  | nil => intro requests seen h; simpa using h address
  | cons request rest ih =>
    intro requests seen h
    rw [List.foldl_cons, ih _ (seen ++ [request.address])]
    · simp
    · intro a
      have ha := h a
      have hr := h request.address
      by_cases hseen : request.address ∈ seen
      · rw [if_pos hseen] at hr
        simp only [Std.ExtTreeMap.contains_eq_isSome_getElem?, hr, Option.isSome_some, if_true, ha,
          List.mem_append, List.mem_singleton]
        by_cases heq : a = request.address
        · subst heq
          simp [hseen]
        · simp [heq]
      · rw [if_neg hseen] at hr
        simp only [Std.ExtTreeMap.contains_eq_isSome_getElem?, hr, Option.isSome_none, Bool.false_eq_true, if_false,
          Std.ExtTreeMap.getElem?_insert, compare_eq_iff_eq, ha, List.mem_append, List.mem_singleton]
        by_cases heq : request.address = a
        · subst heq
          simp
        · simp [heq, Ne.symm heq]

theorem entryOfId_eq_some {request : Request} (h : entryOfId history id = some request) : request.requestId = id := by
  simpa using List.find?_some h

theorem isSome_entryOfId : (entryOfId history id).isSome ↔ ∃ request ∈ history, request.requestId = id := by
  unfold entryOfId
  simp [List.find?_isSome]

/-- The id of a request of the history that is for the address. -/
def Under (history : List Request) (address id : String) : Prop :=
  address ≠ "" ∧ ∃ request ∈ history, request.address = address ∧ request.requestId = id

theorem mem_matchingEntriesForAddress {request : Request} :
    request ∈ matchingEntriesForAddress history address ↔
      Under history address request.requestId ∧ entryOfId history request.requestId = some request := by
  unfold matchingEntriesForAddress Under
  by_cases h : address = ""
  · simp [h]
  · simp only [String.isEmpty_iff, h, if_false, List.mem_filterMap, List.mem_map, List.mem_filter, decide_eq_true_eq,
      ne_eq, not_false_eq_true, true_and]
    constructor
    · rintro ⟨id, ⟨other, ⟨hmem, haddress⟩, rfl⟩, hentry⟩
      have hid := entryOfId_eq_some hentry
      exact ⟨⟨other, hmem, haddress, hid.symm⟩, hid ▸ hentry⟩
    · rintro ⟨⟨other, hmem, haddress, hid⟩, hentry⟩
      exact ⟨request.requestId, ⟨other, ⟨hmem, haddress⟩, hid⟩, hentry⟩

theorem mem_getD_requestsByAddress {request : Request} :
    request ∈ (requestsByAddress history).getD address [] ↔
      Under history address request.requestId ∧ entryOfId history request.requestId = some request := by
  rw [Std.ExtTreeMap.getD_eq_getD_getElem?, getElem?_requestsByAddress]
  split
  · exact mem_matchingEntriesForAddress
  · rename_i hnone
    simp only [Option.getD_none, List.not_mem_nil, false_iff, not_and]
    rintro ⟨-, other, hmem, rfl, -⟩
    exact absurd (List.mem_map_of_mem hmem) hnone

theorem exists_getD_requestsByAddress :
    (∃ request ∈ (requestsByAddress history).getD address [], request.requestId = id) ↔ Under history address id := by
  constructor
  · rintro ⟨request, hmem, rfl⟩
    exact (mem_getD_requestsByAddress.1 hmem).1
  · rintro ⟨hne, other, hmem, haddress, hid⟩
    obtain ⟨request, hentry⟩ := Option.isSome_iff_exists.1 (isSome_entryOfId.2 ⟨other, hmem, hid⟩)
    obtain rfl := entryOfId_eq_some hentry
    exact ⟨request, mem_getD_requestsByAddress.2 ⟨⟨hne, other, hmem, haddress, hid⟩, hentry⟩, rfl⟩

/-- A request of the history that is for an address. -/
def Listed (history : List Request) (id : String) : Prop :=
  ∃ request ∈ history, request.address ≠ "" ∧ request.requestId = id

theorem mem_requests {request : Request} :
    request ∈ (requestsByAddress history).toList.flatMap (·.2) ↔
      Listed history request.requestId ∧ entryOfId history request.requestId = some request := by
  rw [List.mem_flatMap]
  constructor
  · rintro ⟨⟨address, requests⟩, hentry, hmem⟩
    rw [Std.ExtTreeMap.mem_toList_iff_getElem?_eq_some, getElem?_requestsByAddress] at hentry
    split at hentry
    · cases hentry
      obtain ⟨⟨hne, other, hother, rfl, hid⟩, hrow⟩ := mem_matchingEntriesForAddress.1 hmem
      exact ⟨⟨other, hother, hne, hid⟩, hrow⟩
    · cases hentry
  · rintro ⟨⟨other, hother, hne, hid⟩, hrow⟩
    refine ⟨(other.address, matchingEntriesForAddress history other.address), ?_,
      mem_matchingEntriesForAddress.2 ⟨⟨hne, other, hother, rfl, hid⟩, hrow⟩⟩
    rw [Std.ExtTreeMap.mem_toList_iff_getElem?_eq_some, getElem?_requestsByAddress,
      if_pos (List.mem_map_of_mem hother)]

/-! ## What a transaction gathers -/

/-- What a transaction is shown with does not depend on what others have paid. -/
structure Gathered.Same (g g' : Gathered) : Prop where
  actions : g.actions = g'.actions
  requests : g.requests = g'.requests
  request_ids : g.request_ids = g'.request_ids
  search : g.search = g'.search

theorem Gathered.Same.addMatch {g g' : Gathered} (h : g.Same g') (pays : Bool) (request : Request) :
    (g.addMatch pays request).Same (g'.addMatch pays request) := by
  obtain ⟨hactions, hrequests, hids, hsearch⟩ := h
  unfold Gathered.addMatch
  rw [hids]
  constructor <;> split <;> split <;> simp [*]

theorem Gathered.Same.addMatches {g g' : Gathered} (h : g.Same g') (pays : Bool) (requests : List Request) :
    (requests.foldl (Gathered.addMatch pays) g).Same (requests.foldl (Gathered.addMatch pays) g') := by
  induction requests generalizing g g' with
  | nil => exact h
  | cons request requests ih => exact ih (h.addMatch pays request)

theorem same_gather (record : Record) (fulfilled fulfilled' : Finset String)
    (requests_by_address : Std.ExtTreeMap String (List Request)) :
    (gather texts requests_by_address record fulfilled).Same (gather texts requests_by_address record fulfilled') := by
  unfold gather
  have hstart : Gathered.Same { search := [record.activity.txid], fulfilled }
      { search := [record.activity.txid], fulfilled := fulfilled' } := ⟨rfl, rfl, rfl, rfl⟩
  generalize ({ search := [record.activity.txid], fulfilled } : Gathered) = g at hstart ⊢
  generalize ({ search := [record.activity.txid], fulfilled := fulfilled' } : Gathered) = g' at hstart ⊢
  induction record.activity.actions.zipIdx generalizing g g' with
  | nil => exact hstart
  | cons entry entries ih =>
    apply ih
    obtain ⟨hactions, hrequests, hids, hsearch⟩ :=
      hstart.addMatches record.pays (matchesOf requests_by_address entry.1)
    exact ⟨by simp [addAction, hactions], hrequests, hids, by simp [addAction, hsearch]⟩

/-- A request that an output of the transaction pays for. -/
def Matches (history : List Request) (record : Record) (id : String) : Prop :=
  ∃ action ∈ record.activity.actions, 0 ≤ action.output_index ∧ action.direction ≠ .send ∧ 0 < action.amount ∧
    Under history action.address id

theorem exists_matchesOf {action : TransactionAction} :
    (∃ request ∈ matchesOf (requestsByAddress history) action, request.requestId = id) ↔
      0 ≤ action.output_index ∧ action.direction ≠ .send ∧ 0 < action.amount ∧ Under history action.address id := by
  unfold matchesOf
  split
  · rename_i h
    rw [exists_getD_requestsByAddress]
    simp only [ge_iff_le, gt_iff_lt] at h
    simp [h]
  · rename_i h
    simp only [List.not_mem_nil, false_and, exists_false, false_iff]
    exact fun ⟨hindex, hdirection, hamount, _⟩ => h ⟨hindex, hdirection, hamount⟩

theorem mem_fulfilled_addMatches (pays : Bool) (requests : List Request) (g : Gathered) :
    id ∈ (requests.foldl (Gathered.addMatch pays) g).fulfilled ↔
      id ∈ g.fulfilled ∨ pays = true ∧ ∃ request ∈ requests, request.requestId = id := by
  induction requests generalizing g with
  | nil => simp
  | cons request requests ih =>
    have hstep : id ∈ (g.addMatch pays request).fulfilled ↔
        id ∈ g.fulfilled ∨ pays = true ∧ request.requestId = id := by
      unfold Gathered.addMatch
      split <;> split <;> simp_all [Finset.mem_insert, eq_comm, or_comm]
    rw [List.foldl_cons, ih, hstep]
    simp only [List.mem_cons, exists_eq_or_imp]
    tauto

/-- The ids that were taken are those of the requests that were. -/
def Gathered.TakenOnce (g : Gathered) : Prop :=
  ∀ id, id ∈ g.request_ids ↔ ∃ request ∈ g.requests, request.requestId = id

theorem Gathered.TakenOnce.addMatch {g : Gathered} (h : g.TakenOnce) (pays : Bool) (request : Request) :
    (g.addMatch pays request).TakenOnce ∧
      ∀ id, id ∈ (g.addMatch pays request).request_ids ↔ id ∈ g.request_ids ∨ request.requestId = id := by
  unfold Gathered.addMatch
  split
  · rename_i hmem
    have hids (id : String) : id ∈ g.request_ids ↔ id ∈ g.request_ids ∨ request.requestId = id :=
      ⟨.inl, fun h => h.elim (fun h => h) fun heq => heq ▸ hmem⟩
    split <;> exact ⟨h, hids⟩
  · have htaken (id : String) : id ∈ insert request.requestId g.request_ids ↔
        ∃ request' ∈ g.requests ++ [request], request'.requestId = id := by
      rw [Finset.mem_insert, h id]
      simp only [List.mem_append, List.mem_singleton, or_and_right, exists_or, exists_eq_left]
      rw [or_comm, eq_comm]
    have hids (id : String) : id ∈ insert request.requestId g.request_ids ↔
        id ∈ g.request_ids ∨ request.requestId = id := by
      rw [Finset.mem_insert, or_comm, eq_comm]
    split <;> exact ⟨htaken, hids⟩

theorem Gathered.TakenOnce.addMatches {g : Gathered} (h : g.TakenOnce) (pays : Bool) (requests : List Request) :
    (requests.foldl (Gathered.addMatch pays) g).TakenOnce ∧
      ∀ id, id ∈ (requests.foldl (Gathered.addMatch pays) g).request_ids ↔
        id ∈ g.request_ids ∨ ∃ request ∈ requests, request.requestId = id := by
  induction requests generalizing g with
  | nil => exact ⟨h, by simp⟩
  | cons request requests ih =>
    obtain ⟨hnext, hids⟩ := h.addMatch pays request
    obtain ⟨hlast, hall⟩ := ih hnext
    refine ⟨hlast, fun id => ?_⟩
    rw [List.foldl_cons, hall, hids]
    simp only [List.mem_cons, exists_eq_or_imp, or_assoc]

theorem gather_spec (history : List Request) (record : Record) (fulfilled : Finset String) :
    (∀ id, id ∈ (gather texts (requestsByAddress history) record fulfilled).fulfilled ↔
      id ∈ fulfilled ∨ record.pays = true ∧ Matches history record id) ∧
    ∀ id, (∃ request ∈ (gather texts (requestsByAddress history) record fulfilled).requests, request.requestId = id) ↔
      Matches history record id := by
  suffices h : ∀ (entries : List (TransactionAction × Nat)) (g : Gathered), g.TakenOnce →
      let g' := entries.foldl (addAction texts (requestsByAddress history) record) g
      g'.TakenOnce ∧
      (∀ id, id ∈ g'.fulfilled ↔ id ∈ g.fulfilled ∨ record.pays = true ∧
        ∃ entry ∈ entries, ∃ request ∈ matchesOf (requestsByAddress history) entry.1, request.requestId = id) ∧
      ∀ id, id ∈ g'.request_ids ↔ id ∈ g.request_ids ∨
        ∃ entry ∈ entries, ∃ request ∈ matchesOf (requestsByAddress history) entry.1, request.requestId = id by
    have hmatches (id : String) : (∃ entry ∈ record.activity.actions.zipIdx,
        ∃ request ∈ matchesOf (requestsByAddress history) entry.1, request.requestId = id) ↔
          Matches history record id := by
      simp only [exists_matchesOf]
      constructor
      · rintro ⟨entry, hentry, h⟩
        exact ⟨entry.1, List.fst_mem_of_mem_zipIdx hentry, h⟩
      · rintro ⟨action, haction, h⟩
        obtain ⟨i, hi⟩ := List.getElem?_of_mem haction
        exact ⟨(action, i), List.mk_mem_zipIdx_iff_getElem?.2 hi, h⟩
    obtain ⟨htaken, hfulfilled, hids⟩ := h record.activity.actions.zipIdx
      { search := [record.activity.txid], fulfilled } (by simp [Gathered.TakenOnce])
    simp only [hmatches] at hfulfilled hids
    exact ⟨hfulfilled, fun id => (htaken id).symm.trans ((hids id).trans (by simp))⟩
  intro entries
  induction entries with
  | nil => intro g hg; simp [hg]
  | cons entry entries ih =>
    intro g hg
    obtain ⟨htaken, hids⟩ := hg.addMatches record.pays (matchesOf (requestsByAddress history) entry.1)
    have hfulfilled (id : String) := @mem_fulfilled_addMatches id record.pays
      (matchesOf (requestsByAddress history) entry.1) g
    obtain ⟨hlast, hall, hall'⟩ := ih (addAction texts (requestsByAddress history) record g entry) htaken
    refine ⟨hlast, fun id => ?_, fun id => ?_⟩
    · rw [List.foldl_cons, hall]
      show id ∈ (List.foldl _ g _).fulfilled ∨ _ ↔ _
      rw [hfulfilled]
      simp only [List.mem_cons, exists_eq_or_imp]
      rw [or_assoc, ← and_or_left]
    · rw [List.foldl_cons, hall']
      show id ∈ (List.foldl _ g _).request_ids ∨ _ ↔ _
      rw [hids]
      simp only [List.mem_cons, exists_eq_or_imp, or_assoc]

/-! ## The ids of the rows -/

theorem transactionId_inj {txid txid' : String} : transactionId txid = transactionId txid' ↔ txid = txid' := by
  unfold transactionId
  simp

theorem requestRowId_inj {id' : String} : requestRowId id = requestRowId id' ↔ id = id' := by
  unfold requestRowId
  simp

theorem transactionId_ne (txid request_id : String) : transactionId txid ≠ requestRowId request_id := by
  intro h
  have hlist := congrArg String.toList h
  simp [transactionId, requestRowId] at hlist

theorem getElem?_ofList {entries : List (Int × Variant)} (hnodup : (entries.map Prod.fst).Nodup) {role : Int}
    {value : Variant} (hmem : (role, value) ∈ entries) :
    (Std.ExtTreeMap.ofList entries : Row Variant)[role]? = some value :=
  Std.ExtTreeMap.getElem?_ofList_of_mem Std.ReflCmp.compare_self
    ((List.pairwise_map.1 hnodup).imp fun hne heq => hne (compare_eq_iff_eq.1 heq)) hmem

theorem nodup_transactionEntries (record : Record) (g : Gathered) :
    ((transactionEntries texts record g).map Prod.fst).Nodup := by
  unfold transactionEntries
  simp only [List.map_cons, List.map_nil]
  decide

theorem nodup_requestEntries (request : Request) : ((requestEntries texts request).map Prod.fst).Nodup := by
  unfold requestEntries
  simp only [List.map_cons, List.map_nil]
  decide

theorem transactionRow_id (record : Record) (g : Gathered) :
    (transactionRow texts record g)[IdRole]? = some (.str (transactionId record.activity.txid)) :=
  getElem?_ofList (nodup_transactionEntries record g) (by simp [transactionEntries])

theorem transactionRow_isPendingRequest (record : Record) (g : Gathered) :
    (transactionRow texts record g)[IsPendingRequestRole]? = some (.bool false) :=
  getElem?_ofList (nodup_transactionEntries record g) (by simp [transactionEntries])

theorem transactionRow_paymentRequests (record : Record) (g : Gathered) :
    (transactionRow texts record g)[PaymentRequestsRole]? = some (.requests g.requests) :=
  getElem?_ofList (nodup_transactionEntries record g) (by simp [transactionEntries])

theorem requestRow_id (request : Request) :
    (requestRow texts request)[IdRole]? = some (.str (requestRowId request.requestId)) :=
  getElem?_ofList (nodup_requestEntries request) (by simp [requestEntries])

theorem requestRow_isPendingRequest (request : Request) :
    (requestRow texts request)[IsPendingRequestRole]? = some (.bool true) :=
  getElem?_ofList (nodup_requestEntries request) (by simp [requestEntries])

/-! ## The new rows -/

/-- The row of a transaction, which does not depend on the others. -/
def rowOf (texts : Texts) (history : List Request) (record : Record) : Row Variant :=
  transactionRow texts record (gather texts (requestsByAddress history) record ∅)

theorem transactionRow_gather (record : Record) (fulfilled : Finset String) :
    transactionRow texts record (gather texts (requestsByAddress history) record fulfilled) =
      rowOf texts history record := by
  obtain ⟨hactions, hrequests, -, hsearch⟩ := @same_gather texts record fulfilled ∅ (requestsByAddress history)
  unfold rowOf transactionRow transactionEntries
  rw [hactions, hrequests, hsearch]

/-- A transaction of the list pays the request. -/
def Paid (history : List Request) (records : List Record) (id : String) : Prop :=
  ∃ record ∈ records, record.pays = true ∧ Matches history record id

/-- What stands in the map after the transactions of the list. -/
structure Transacted (texts : Texts) (history : List Request) (records : List Record)
    (done : RowMap String Variant × Finset String) : Prop where
  sound : ∀ key row, done.1[key]? = some row →
    ∃ record ∈ records, key = transactionId record.activity.txid ∧ row = rowOf texts history record
  complete : ∀ record ∈ records, ∃ row, done.1[transactionId record.activity.txid]? = some row
  fulfilled : ∀ id, id ∈ done.2 ↔ Paid history records id

theorem Transacted.snoc {records : List Record} {done : RowMap String Variant × Finset String}
    (h : Transacted texts history records done) (record : Record) :
    Transacted texts history (records ++ [record]) (addTransaction texts (requestsByAddress history) done record) := by
  have hspec := (@gather_spec texts history record done.2).1
  refine ⟨fun key row hrow => ?_, fun record' hrecord' => ?_, fun id => ?_⟩
  · simp only [addTransaction, Std.ExtTreeMap.getElem?_insert, compare_eq_iff_eq] at hrow
    split at hrow
    · rename_i hkey
      cases hrow
      exact ⟨record, by simp, hkey.symm, transactionRow_gather record done.2⟩
    · obtain ⟨record', hmem, hkey, heq⟩ := h.sound key row hrow
      exact ⟨record', List.mem_append_left _ hmem, hkey, heq⟩
  · simp only [addTransaction, Std.ExtTreeMap.getElem?_insert, compare_eq_iff_eq]
    split
    · exact ⟨_, rfl⟩
    · rename_i hne
      rcases List.mem_append.1 hrecord' with hmem | hmem
      · exact h.complete record' hmem
      · exact absurd (by rw [List.mem_singleton.1 hmem]) hne
  · show id ∈ (gather _ _ _ _).fulfilled ↔ _
    rw [hspec, h.fulfilled]
    simp only [Paid, List.mem_append, List.mem_singleton, or_and_right, exists_or, exists_eq_left]

theorem transacted (texts : Texts) (input : Input) :
    Transacted texts input.history input.m_transactions (transactionRows texts input) := by
  unfold transactionRows
  induction input.m_transactions using List.reverseRecOn with
  | nil => exact ⟨by simp, by simp, by simp [Paid]⟩
  | append_singleton records record ih =>
    rw [List.foldl_append]
    exact ih.snoc record

/-- What stands in the map after the requests of the list. -/
structure Requested (texts : Texts) (done : RowMap String Variant × Finset String) (requests : List Request)
    (rows : RowMap String Variant) : Prop where
  sound : ∀ key row, rows[key]? = some row → done.1[key]? = some row ∨
    ∃ request ∈ requests, request.requestId ∉ done.2 ∧ key = requestRowId request.requestId ∧
      row = requestRow texts request
  kept : ∀ txid, rows[transactionId txid]? = done.1[transactionId txid]?
  complete : ∀ request ∈ requests, request.requestId ∉ done.2 → ∃ row, rows[requestRowId request.requestId]? = some row

theorem requested (texts : Texts) (done : RowMap String Variant × Finset String) (requests : List Request) :
    Requested texts done requests (requests.foldl (addRequest texts done.2) done.1) := by
  induction requests using List.reverseRecOn with
  | nil => exact ⟨fun _ _ h => .inl h, fun _ => rfl, by simp⟩
  | append_singleton requests request ih =>
    rw [List.foldl_append, List.foldl_cons, List.foldl_nil]
    unfold addRequest
    split
    · rename_i hpaid
      refine ⟨fun key row hrow => ?_, ih.kept, fun request' hmem hunpaid => ?_⟩
      · rcases ih.sound key row hrow with hold | ⟨request', hmem, hrest⟩
        · exact .inl hold
        · exact .inr ⟨request', List.mem_append_left _ hmem, hrest⟩
      · rcases List.mem_append.1 hmem with hmem | hmem
        · exact ih.complete request' hmem hunpaid
        · rw [List.mem_singleton.1 hmem] at hunpaid
          exact absurd hpaid hunpaid
    · rename_i hunpaid
      refine ⟨fun key row hrow => ?_, fun txid => ?_, fun request' hmem hunpaid' => ?_⟩
      · simp only [Std.ExtTreeMap.getElem?_insert, compare_eq_iff_eq] at hrow
        split at hrow
        · rename_i hkey
          cases hrow
          exact .inr ⟨request, by simp, hunpaid, hkey.symm, rfl⟩
        · rcases ih.sound key row hrow with hold | ⟨request', hmem, hrest⟩
          · exact .inl hold
          · exact .inr ⟨request', List.mem_append_left _ hmem, hrest⟩
      · simp only [Std.ExtTreeMap.getElem?_insert, compare_eq_iff_eq,
          if_neg (Ne.symm (transactionId_ne txid request.requestId))]
        exact ih.kept txid
      · simp only [Std.ExtTreeMap.getElem?_insert, compare_eq_iff_eq]
        split
        · exact ⟨_, rfl⟩
        · rename_i hne
          rcases List.mem_append.1 hmem with hmem | hmem
          · exact ih.complete request' hmem hunpaid'
          · exact absurd (by rw [List.mem_singleton.1 hmem]) hne

/-- The entry in the row of an id that is listed and that no transaction pays. -/
structure Pending (input : Input) (request : Request) : Prop where
  listed : Listed input.history request.requestId
  unpaid : ¬Paid input.history input.m_transactions request.requestId
  entry : entryOfId input.history request.requestId = some request

theorem Pending.eq {request request' : Request} (h : Pending input request) (h' : Pending input request')
    (hid : request.requestId = request'.requestId) : request = request' := by
  have hentry := h.entry
  rw [hid, h'.entry] at hentry
  exact (Option.some.inj hentry).symm

theorem exists_pending : (∃ request, Pending input request ∧ request.requestId = id) ↔
    Listed input.history id ∧ ¬Paid input.history input.m_transactions id := by
  constructor
  · rintro ⟨request, hpending, rfl⟩
    exact ⟨hpending.listed, hpending.unpaid⟩
  · rintro ⟨hlisted, hunpaid⟩
    obtain ⟨other, hmem, hne, hid⟩ := hlisted
    obtain ⟨request, hentry⟩ := Option.isSome_iff_exists.1 (isSome_entryOfId.2 ⟨other, hmem, hid⟩)
    obtain rfl := entryOfId_eq_some hentry
    exact ⟨request, ⟨⟨other, hmem, hne, hid⟩, hunpaid, hentry⟩, rfl⟩

/-- The rows that a rebuild makes. -/
structure Made (texts : Texts) (input : Input) (rows : RowMap String Variant) : Prop where
  sound : ∀ key row, rows[key]? = some row →
    (∃ record ∈ input.m_transactions, key = transactionId record.activity.txid ∧
      row = rowOf texts input.history record) ∨
    ∃ request, Pending input request ∧ key = requestRowId request.requestId ∧ row = requestRow texts request
  transaction : ∀ record ∈ input.m_transactions, ∃ row, rows[transactionId record.activity.txid]? = some row
  request : ∀ request, Pending input request → ∃ row, rows[requestRowId request.requestId]? = some row

theorem made_newRows (texts : Texts) (input : Input) : Made texts input (newRows texts input) := by
  have htransacted := transacted texts input
  have hrequested := requested texts (transactionRows texts input)
    ((requestsByAddress input.history).toList.flatMap (·.2))
  refine ⟨fun key row hrow => ?_, fun record hrecord => ?_, fun request hpending => ?_⟩
  · rcases hrequested.sound key row hrow with hold | ⟨request, hmem, hunpaid, hkey, heq⟩
    · exact .inl (htransacted.sound key row hold)
    · obtain ⟨hlisted, hentry⟩ := mem_requests.1 hmem
      exact .inr ⟨request, ⟨hlisted, fun hpaid => hunpaid ((htransacted.fulfilled _).2 hpaid), hentry⟩, hkey, heq⟩
  · obtain ⟨row, hrow⟩ := htransacted.complete record hrecord
    exact ⟨row, (hrequested.kept _).trans hrow⟩
  · exact hrequested.complete request (mem_requests.2 ⟨hpending.listed, hpending.entry⟩) fun hpaid =>
      hpending.unpaid ((htransacted.fulfilled _).1 hpaid)

/-! ## The rows of the model -/

def isPendingRequest (row : Row Variant) : Bool := variants.toBool (variants.data row IsPendingRequestRole)

theorem data_of_getElem? {row : Row Variant} {role : Int} {value : Variant} (h : row[role]? = some value) :
    variants.data row role = value := by
  unfold Activity.Rows.Variants.data
  rw [Std.ExtTreeMap.getD_eq_getD_getElem?, h, Option.getD_some]

@[simp] theorem id_rowOf (record : Record) :
    variants.id (rowOf texts history record) = transactionId record.activity.txid := by
  unfold Activity.Rows.Variants.id
  rw [rowOf, data_of_getElem? (transactionRow_id record _)]
  rfl

@[simp] theorem isPendingRequest_rowOf (record : Record) : isPendingRequest (rowOf texts history record) = false := by
  unfold isPendingRequest
  rw [rowOf, data_of_getElem? (transactionRow_isPendingRequest record _)]
  rfl

@[simp] theorem id_requestRow (request : Request) :
    variants.id (requestRow texts request) = requestRowId request.requestId := by
  unfold Activity.Rows.Variants.id
  rw [data_of_getElem? (requestRow_id request)]
  rfl

@[simp] theorem isPendingRequest_requestRow (request : Request) :
    isPendingRequest (requestRow texts request) = true := by
  unfold isPendingRequest
  rw [data_of_getElem? (requestRow_isPendingRequest request)]
  rfl

theorem byId_newRows (texts : Texts) (input : Input) : ById variants (newRows texts input) := by
  intro key row hrow
  rcases (made_newRows texts input).sound key row hrow with ⟨record, -, rfl, rfl⟩ | ⟨request, -, rfl, rfl⟩
  · exact id_rowOf record
  · exact id_requestRow request

theorem rebuildRows_eq {m_rows : List (Row Variant)} (hsorted : Sorted variants m_rows) :
    rebuildRows texts input m_rows = some ((newRows texts input).toList.map (·.2)) := by
  obtain ⟨s, gone, rest, hreconcile, hpass, hdelays⟩ :=
    Activity.Rows.reconcile_eq (v := variants) ⟨hsorted, byId_newRows texts input⟩ input.m_transactions.length
  have hrows := congrArg (Option.map (·.rows)) hreconcile
  rw [Option.map_map] at hrows
  unfold rebuildRows
  rw [← (hpass.finish hdelays).1.rows]
  exact hrows

/-- One rebuild after another, of a model that starts empty. -/
def rebuilds (texts : Texts) (inputs : List Input) : Option (List (Row Variant)) :=
  inputs.foldlM (fun m_rows input => rebuildRows texts input m_rows) []

theorem rebuilds_concat (texts : Texts) (inputs : List Input) (input : Input) :
    rebuilds texts (inputs ++ [input]) = some ((newRows texts input).toList.map (·.2)) := by
  have hsome : ∃ m_rows, rebuilds texts inputs = some m_rows ∧ Sorted variants m_rows := by
    induction inputs using List.reverseRecOn with
    | nil => exact ⟨[], rfl, List.Pairwise.nil⟩
    | append_singleton inputs input' ih =>
      obtain ⟨m_rows, hrun, hsorted⟩ := ih
      refine ⟨_, ?_, Activity.Rows.sorted_toList (byId_newRows texts input')⟩
      unfold rebuilds at hrun ⊢
      rw [List.foldlM_append, hrun]
      simpa using rebuildRows_eq hsorted
  obtain ⟨m_rows, hrun, hsorted⟩ := hsome
  unfold rebuilds at hrun ⊢
  rw [List.foldlM_append, hrun]
  simpa using rebuildRows_eq hsorted

theorem mem_rows {row : Row Variant} :
    row ∈ (newRows texts input).toList.map (·.2) ↔ ∃ key : String, (newRows texts input)[key]? = some row := by
  simp only [List.mem_map, Prod.exists, Std.ExtTreeMap.mem_toList_iff_getElem?_eq_some]
  constructor
  · rintro ⟨key, _, hrow, rfl⟩
    exact ⟨key, hrow⟩
  · rintro ⟨key, hrow⟩
    exact ⟨key, row, hrow, rfl⟩

theorem transactions_perm (hkeyed : Keyed (fun record : Record => record.activity.txid) input.m_transactions) :
    (((newRows texts input).toList.map (·.2)).filter fun row => !isPendingRequest row).Perm
      (input.m_transactions.map (rowOf texts input.history)) := by
  have hmade := made_newRows texts input
  have hsorted := Activity.Rows.sorted_toList (byId_newRows texts input)
  have hnodup : ((newRows texts input).toList.map (·.2)).Nodup :=
    hsorted.imp fun hlt heq => absurd hlt (by rw [heq]; exact lt_irrefl _)
  have hmap : (input.m_transactions.map (rowOf texts input.history)).Nodup := by
    refine List.pairwise_map.2 ((List.pairwise_map.1 hkeyed).imp fun hne heq => hne ?_)
    have hid := congrArg variants.id heq
    rwa [id_rowOf, id_rowOf, transactionId_inj] at hid
  refine (List.perm_ext_iff_of_nodup (hnodup.filter _) hmap).2 fun row => ?_
  rw [List.mem_filter, mem_rows, List.mem_map]
  constructor
  · rintro ⟨⟨key, hrow⟩, hpending⟩
    rcases hmade.sound key row hrow with ⟨record, hrecord, -, rfl⟩ | ⟨request, -, -, rfl⟩
    · exact ⟨record, hrecord, rfl⟩
    · simp at hpending
  · rintro ⟨record, hrecord, rfl⟩
    refine ⟨⟨transactionId record.activity.txid, ?_⟩, by simp⟩
    obtain ⟨row, hrow⟩ := hmade.transaction record hrecord
    rcases hmade.sound _ row hrow with ⟨record', hrecord', hkey, rfl⟩ | ⟨request, -, hkey, -⟩
    · rw [hrow, hkeyed.inj hrecord hrecord' (transactionId_inj.1 hkey)]
    · exact absurd hkey (transactionId_ne _ _)

theorem exists_pendingRows (texts : Texts) (input : Input) : ∃ pending : List Request,
    ((newRows texts input).toList.map (·.2)).filter isPendingRequest = pending.map (requestRow texts) ∧
      (pending.map (·.requestId)).Nodup ∧ ∀ request, request ∈ pending ↔ Pending input request := by
  have hmade := made_newRows texts input
  have hsorted := Activity.Rows.sorted_toList (byId_newRows texts input)
  have hrange : ((newRows texts input).toList.map (·.2)).filter isPendingRequest ∈
      Set.range (List.map fun request : { request // Pending input request } => requestRow texts request) := by
    rw [Set.range_list_map]
    intro row hrow
    rw [List.mem_filter, mem_rows] at hrow
    obtain ⟨⟨key, hrow⟩, hpending⟩ := hrow
    rcases hmade.sound key row hrow with ⟨record, -, -, rfl⟩ | ⟨request, hrequest, -, rfl⟩
    · simp at hpending
    · exact ⟨⟨request, hrequest⟩, rfl⟩
  obtain ⟨pending, hrows⟩ := hrange
  refine ⟨pending.map (·.1), by rw [← hrows, List.map_map]; rfl, ?_, fun request => ⟨?_, fun hpending => ?_⟩⟩
  · have hids := hsorted.filter isPendingRequest
    rw [← hrows, List.pairwise_map] at hids
    rw [List.map_map]
    refine List.pairwise_map.2 (hids.imp fun {a b} hlt heq => ?_)
    rw [id_requestRow, id_requestRow, show a.1.requestId = b.1.requestId from heq] at hlt
    exact lt_irrefl _ hlt
  · rintro hmem
    obtain ⟨⟨request, hpending⟩, -, rfl⟩ := List.mem_map.1 hmem
    exact hpending
  · obtain ⟨row, hrow⟩ := hmade.request request hpending
    rcases hmade.sound _ row hrow with ⟨record, -, hkey, -⟩ | ⟨request', hpending', hkey, rfl⟩
    · exact absurd hkey.symm (transactionId_ne _ _)
    · obtain rfl := hpending.eq hpending' (requestRowId_inj.1 hkey)
      have hmem : requestRow texts request ∈ ((newRows texts input).toList.map (·.2)).filter isPendingRequest :=
        List.mem_filter.2 ⟨mem_rows.2 ⟨_, hrow⟩, by simp⟩
      rw [← hrows, List.mem_map] at hmem
      obtain ⟨⟨found, hfound⟩, hin, heq⟩ := hmem
      have hid := congrArg variants.id heq
      rw [id_requestRow, id_requestRow, requestRowId_inj] at hid
      exact List.mem_map.2 ⟨_, hin, hfound.eq hpending hid⟩

/-- After any rebuilds every transaction has its row, a request has one row of its own exactly where it is for an
address and no transaction pays it, and a request that is paid stands in the row of a transaction that pays it.
What `requestCount` says is how many rows are requests. -/
theorem rebuilds_account (texts : Texts) (inputs : List Input) (input : Input)
    (hkeyed : Keyed (fun record : Record => record.activity.txid) input.m_transactions) :
    ∃ m_rows, ∃ pending : List Request, rebuilds texts (inputs ++ [input]) = some m_rows ∧
      (m_rows.filter fun row => !isPendingRequest row).Perm (input.m_transactions.map (rowOf texts input.history)) ∧
      m_rows.filter isPendingRequest = pending.map (requestRow texts) ∧
      (pending.map (·.requestId)).Nodup ∧
      (∀ id, id ∈ pending.map (·.requestId) ↔
        Listed input.history id ∧ ¬Paid input.history input.m_transactions id) ∧
      (∀ request ∈ pending, entryOfId input.history request.requestId = some request) ∧
      (∀ id, Paid input.history input.m_transactions id → ∃ record ∈ input.m_transactions, record.pays = true ∧
        ∃ requests, (rowOf texts input.history record)[PaymentRequestsRole]? = some (.requests requests) ∧
          ∃ request ∈ requests, request.requestId = id) ∧
      m_rows.length = input.m_transactions.length + pending.length := by
  obtain ⟨pending, hpending, hnodup, hmem⟩ := exists_pendingRows texts input
  have hperm := @transactions_perm texts input hkeyed
  refine ⟨_, pending, rebuilds_concat texts inputs input, hperm, hpending, hnodup, fun id => ?_,
    fun request hrequest => ((hmem request).1 hrequest).entry, fun id hpaid => ?_, ?_⟩
  · simp only [List.mem_map, hmem, exists_pending]
  · obtain ⟨record, hrecord, hpays, hmatches⟩ := hpaid
    obtain ⟨request, hmem, hid⟩ := ((@gather_spec texts input.history record ∅).2 id).2 hmatches
    exact ⟨record, hrecord, hpays, _, transactionRow_paymentRequests record _, request, hmem, hid⟩
  · have htransactions := hperm.length_eq
    have hrequests := congrArg List.length hpending
    rw [List.length_map, ← List.countP_eq_length_filter] at htransactions hrequests
    rw [← htransactions, ← hrequests, List.length_eq_countP_add_countP isPendingRequest, Nat.add_comm]
    simp

def plainTexts : Texts where
  formatAmount _ _ := "0"
  fromIso _ := 0

def output (direction : Interpret.Direction) (address : String) (output_index : Int) : TransactionAction where
  id := ""
  direction := direction
  amount := 5
  address := address
  output_index := output_index

/-- A payment to a request and one to somebody else, and a transaction that the wallet has not answered for. -/
def payments : List Record :=
  [⟨{ txid := "aa", actions := [output .receive "bc1" 0, output .send "bc4" 1] }, ["", ""], .confirmed, 6, 0, true⟩,
    ⟨{ txid := "bb", actions := [output .receive "bc2" 0] }, [""], .unconfirmed, 0, 0, false⟩]

/-- Two requests have the same id, and one has no address. -/
def requests : List Request :=
  [{ requestId := "1", address := "bc1" }, { requestId := "2", address := "bc2" }, { requestId := "3" },
    { requestId := "2", address := "bc3" }, { requestId := "4", address := "bc4" }]

theorem paid_payments : Paid requests payments id ↔ id = "1" := by
  unfold Paid Matches Under
  simp [payments, Record.pays, Record.inactive, Record.replaced, output, requests]
  exact ⟨Eq.symm, Eq.symm⟩

theorem listed_requests : Listed requests id ∧ ¬Paid requests payments id ↔ id = "2" ∨ id = "4" := by
  rw [paid_payments]
  constructor
  · rintro ⟨⟨request, hmem, hne, rfl⟩, hunpaid⟩
    simp only [requests, List.mem_cons, List.not_mem_nil, or_false] at hmem
    rcases hmem with rfl | rfl | rfl | rfl | rfl <;> simp_all
  · unfold Listed
    rintro (rfl | rfl) <;> decide

theorem rebuilds_account_two_payments :
    ∃ m_rows, ∃ pending : List Request,
      rebuilds plainTexts [⟨[], requests⟩, ⟨payments, []⟩, ⟨payments, requests⟩] = some m_rows ∧
      m_rows.filter isPendingRequest = pending.map (requestRow plainTexts) ∧
      pending.Perm [{ requestId := "2", address := "bc3" }, { requestId := "4", address := "bc4" }] ∧
      m_rows.length = 4 := by
  obtain ⟨m_rows, pending, hrun, -, hrows, hnodup, hids, hentries, -, hcount⟩ :=
    rebuilds_account plainTexts [⟨[], requests⟩, ⟨payments, []⟩] ⟨payments, requests⟩
      (show ["aa", "bb"].Nodup by decide)
  have hshown : ∀ request ∈ pending,
      request ∈ [({ requestId := "2", address := "bc3" } : Request), { requestId := "4", address := "bc4" }] := by
    intro request hmem
    have hentry := hentries request hmem
    rcases listed_requests.1 ((hids _).1 (List.mem_map_of_mem hmem)) with hid | hid <;>
      rw [hid] at hentry <;> cases hentry <;> decide
  have hperm : pending.Perm [{ requestId := "2", address := "bc3" }, { requestId := "4", address := "bc4" }] := by
    refine (List.perm_ext_iff_of_nodup (List.Nodup.of_map _ hnodup) (by decide)).2 fun request =>
      ⟨hshown request, fun hmem => ?_⟩
    have hid : request.requestId = "2" ∨ request.requestId = "4" := by
      rcases List.mem_pair.1 hmem with rfl | rfl <;> decide
    obtain ⟨found, hfound, heq⟩ := List.mem_map.1 ((hids _).2 (listed_requests.2 hid))
    have hsame : request = found := by
      rcases List.mem_pair.1 hmem with rfl | rfl <;>
        rcases List.mem_pair.1 (hshown found hfound) with rfl | rfl <;> simp_all
    exact hsame ▸ hfound
  exact ⟨m_rows, pending, hrun, hrows, hperm, by rw [hcount, hperm.length_eq]; rfl⟩

end GuiQml.Rebuild
