import GuiQml.Receive.Reconciliation

/-!
# Ids of new receive requests

The rows of the history and the requests in the wallet, where nothing says that an id names one entry. The
history finds a row by its id, and the wallet keeps a request under its address and id. A new request gets
the id after the largest one, or 1 near the end of the range.
-/

namespace GuiQml.Receive

open ReceiveRequestHistoryModel (foldl_max_id)

structure RequestRows (Address : Type) where
  m_entries : List (QmlRecentRequestEntry Address)
  /-- The requests of the wallet that decode. -/
  receive_requests : List (QmlRecentRequestEntry Address)

/-- What the wallet stores a request under. -/
def QmlRecentRequestEntry.key {Address : Type} (entry : QmlRecentRequestEntry Address) : Address × Int :=
  (entry.address, entry.id)

namespace RequestRows

/-! ## Rows and stored requests -/

section Rows

variable {Address : Type} [DecidableEq Address]

/-- The row in `m_row_by_id`: a later row of the same id wins. -/
def indexOfId (id : Int) : List (QmlRecentRequestEntry Address) → Option Nat
  | [] => none
  | entry :: entries =>
    match indexOfId id entries with
    | some row => some (row + 1)
    | none => if entry.id = id then some 0 else none

def prependOrReplace (entries : List (QmlRecentRequestEntry Address))
    (entry : QmlRecentRequestEntry Address) : List (QmlRecentRequestEntry Address) :=
  match indexOfId entry.id entries with
  | some existing => entries.set existing entry
  | none => entry :: entries

def removeByRequestId (entries : List (QmlRecentRequestEntry Address)) (id : Int) :
    List (QmlRecentRequestEntry Address) :=
  match indexOfId id entries with
  | some row => entries.eraseIdx row
  | none => entries

def entryById (entries : List (QmlRecentRequestEntry Address)) (id : Int) :
    Option (QmlRecentRequestEntry Address) :=
  (indexOfId id entries).bind (entries[·]?)

/-- The ids under the address, each looked up again. -/
def entriesForAddress (entries : List (QmlRecentRequestEntry Address)) (address : Address) :
    List (QmlRecentRequestEntry Address) :=
  ((entries.filter (·.address = address)).map (·.id)).filterMap (entryById entries)

def maxId (entries : List (QmlRecentRequestEntry Address)) : Int :=
  entries.foldl (fun max_id entry => max max_id entry.id) 0

def setAddressReceiveRequest (requests : List (QmlRecentRequestEntry Address))
    (entry : QmlRecentRequestEntry Address) : List (QmlRecentRequestEntry Address) :=
  if entry.key ∈ requests.map (·.key) then
    requests.map fun other => if other.key = entry.key then entry else other
  else requests ++ [entry]

def eraseAddressReceiveRequest (requests : List (QmlRecentRequestEntry Address))
    (key : Address × Int) : List (QmlRecentRequestEntry Address) :=
  requests.filter (·.key ≠ key)

end Rows

/-! ## Distinct ids -/

section Distinct

variable {Address : Type} {entries : List (QmlRecentRequestEntry Address)}
  {entry other : QmlRecentRequestEntry Address} {id : Int}

@[simp]
theorem indexOfId_eq_none : indexOfId id entries = none ↔ ∀ entry ∈ entries, entry.id ≠ id := by
  induction entries with
  | nil => simp [indexOfId]
  | cons head entries ih =>
    simp only [indexOfId, List.forall_mem_cons, ← ih]
    cases indexOfId id entries with
    | some row => simp
    | none => simp

theorem indexOfId_eq_some {row : Nat} (h : indexOfId id entries = some row) :
    ∃ entry, entries[row]? = some entry ∧ entry.id = id := by
  induction entries generalizing row with
  | nil => simp [indexOfId] at h
  | cons head entries ih =>
    simp only [indexOfId] at h
    split at h
    · rename_i found hfound
      obtain rfl := Option.some.inj h
      simpa using ih hfound
    · split at h
      · obtain rfl := Option.some.inj h
        exact ⟨head, rfl, ‹_›⟩
      · simp at h

theorem id_mem_of_indexOfId {row : Nat} (h : indexOfId id entries = some row) :
    id ∈ entries.map (·.id) := by
  obtain ⟨entry, hentry, rfl⟩ := indexOfId_eq_some h
  exact List.mem_map_of_mem (List.mem_of_getElem? hentry)

theorem mem_of_entryById (h : entryById entries id = some entry) : entry ∈ entries ∧ entry.id = id := by
  unfold entryById at h
  obtain ⟨row, hrow, hget⟩ := Option.bind_eq_some_iff.mp h
  obtain ⟨found, hfound, hid⟩ := indexOfId_eq_some hrow
  obtain rfl := Option.some.inj (hfound.symm.trans hget)
  exact ⟨List.mem_of_getElem? hfound, hid⟩

theorem mem_of_entriesForAddress [DecidableEq Address] {address : Address}
    (h : entry ∈ entriesForAddress entries address) : entry ∈ entries := by
  unfold entriesForAddress at h
  obtain ⟨id, -, hfound⟩ := List.mem_filterMap.mp h
  exact (mem_of_entryById hfound).1

theorem prependOrReplace_fresh (h : ∀ other ∈ entries, other.id ≠ entry.id) :
    prependOrReplace entries entry = entry :: entries := by
  rw [prependOrReplace, indexOfId_eq_none.mpr h]

theorem prependOrReplace_known (hnodup : (entries.map (·.id)).Nodup)
    (h : entry.id ∈ entries.map (·.id)) :
    prependOrReplace entries entry =
      entries.map fun other => if other.id = entry.id then entry else other := by
  induction entries with
  | nil => simp at h
  | cons head entries ih =>
    simp only [List.map_cons, List.nodup_cons] at hnodup
    simp only [prependOrReplace, indexOfId] at ih ⊢
    cases hrow : indexOfId entry.id entries with
    | some row =>
      rw [hrow] at ih
      have hin := id_mem_of_indexOfId hrow
      have hne : head.id ≠ entry.id := fun heq => hnodup.1 (heq ▸ hin)
      simp only [List.set_cons_succ, List.map_cons, hne, if_false]
      exact congrArg (head :: ·) (ih hnodup.2 hin)
    | none =>
      have hfresh := indexOfId_eq_none.mp hrow
      have hhead : head.id = entry.id := by
        simp only [List.map_cons, List.mem_cons, List.mem_map] at h
        rcases h with heq | ⟨other, hother, heq⟩
        · exact heq.symm
        · exact absurd heq (hfresh other hother)
      simp only [hhead, if_true, List.set_cons_zero, List.map_cons]
      rw [List.map_congr_left fun other hother => if_neg (hfresh other hother), List.map_id']

theorem removeByRequestId_eq (hnodup : (entries.map (·.id)).Nodup) :
    removeByRequestId entries id = entries.filter (·.id ≠ id) := by
  induction entries with
  | nil => rfl
  | cons head entries ih =>
    simp only [List.map_cons, List.nodup_cons] at hnodup
    specialize ih hnodup.2
    simp only [removeByRequestId, indexOfId] at ih ⊢
    cases hrow : indexOfId id entries with
    | some row =>
      have hne : head.id ≠ id := fun heq => hnodup.1 (heq ▸ id_mem_of_indexOfId hrow)
      rw [hrow] at ih
      simp only [List.eraseIdx_cons_succ, List.filter_cons, hne, ne_eq, not_false_eq_true, decide_true,
        if_true, ih]
    | none =>
      rw [hrow] at ih
      by_cases heq : head.id = id
      · simpa [heq] using ih
      · simpa [heq] using ih

/-- The history of `ReceiveRequestHistoryModel`, whose ids are distinct, has these rows. -/
theorem m_entries_prependOrReplace (r : ReceiveRequestHistoryModel Address) :
    (r.prependOrReplace entry).m_entries = prependOrReplace r.m_entries entry := by
  unfold ReceiveRequestHistoryModel.prependOrReplace
  split
  · exact (prependOrReplace_known r.nodup ‹_›).symm
  · rename_i hfresh
    exact (prependOrReplace_fresh fun other hother heq => hfresh (heq ▸ List.mem_map_of_mem hother)).symm

theorem m_entries_removeByRequestId (r : ReceiveRequestHistoryModel Address) :
    (r.removeByRequestId id).m_entries = removeByRequestId r.m_entries id :=
  (removeByRequestId_eq r.nodup).symm

end Distinct

section Operations

variable {Address : Type} [DecidableEq Address] (store : Int → Bool) (s : RequestRows Address)

/-- The largest `unsigned int`. -/
def UINT_MAX : Int := 4294967295

def nextPaymentRequestId : Int :=
  let max_id := maxId s.m_entries
  if max_id ≤ 0 || UINT_MAX - 1 ≤ max_id then 1 else max_id + 1

def writeEntry (entry : QmlRecentRequestEntry Address) : RequestRows Address where
  m_entries := prependOrReplace s.m_entries entry
  receive_requests := setAddressReceiveRequest s.receive_requests entry

/-- `savePaymentRequest` of a request without an id. -/
def saveNew (request : PaymentRequest Address) : RequestRows Address :=
  let id := nextPaymentRequestId s
  if !moneyRange request.amount || !store id then s
  else writeEntry s (requestEntry request id false)

/-- `savePaymentRequest` of a request with an id, unless a scan or a notification is pending. -/
def saveUpdate (pending : Bool) (request : PaymentRequest Address) (id : Int) : RequestRows Address :=
  if pending then s
  else match entryById s.m_entries id with
    | none => s
    | some existing =>
      if id ≤ 0 || !moneyRange request.amount || !mayReplace existing request || !store id then s
      else writeEntry s (requestEntry request id existing.payment_received)

/-- The lock is kept in the history even where the wallet does not store it. -/
def markEntry (s : RequestRows Address) (entry : QmlRecentRequestEntry Address) : RequestRows Address :=
  if entry.payment_received then s
  else
    let entry := { entry with payment_received := true }
    if store entry.id then writeEntry s entry
    else { s with m_entries := prependOrReplace s.m_entries entry }

def markReceiveRequestPayment (address : Address) : RequestRows Address :=
  (entriesForAddress s.m_entries address).foldl (markEntry store) s

def syncNote (label : String) (s : RequestRows Address) (entry : QmlRecentRequestEntry Address) :
    RequestRows Address :=
  if entry.noteSelf = label || !store entry.id then s
  else writeEntry s { entry with noteSelf := label }

def syncPaymentRequestNoteToAddress (address : Address) (label : String) : RequestRows Address :=
  (entriesForAddress s.m_entries address).foldl (syncNote store label) s

def removeReceiveRequest (isValid : Address → Bool) (id : Int) : RequestRows Address :=
  match entryById s.m_entries id with
  | none => s
  | some entry =>
    if !isValid entry.address || !store id then s
    else
      { m_entries := removeByRequestId s.m_entries id
        receive_requests := eraseAddressReceiveRequest s.receive_requests (entry.address, id) }

end Operations

/-! ## Runs -/

section Runs

variable {Address : Type}

/-- The history shows what a wallet stores: each request has an id of its own, above 0 and below `2 ^ 32`.
The order of the rows is that of their dates. -/
structure Loaded (s : RequestRows Address) : Prop where
  rows : s.m_entries.Perm s.receive_requests
  nodup : (s.receive_requests.map (·.id)).Nodup
  range : ∀ entry ∈ s.receive_requests, 0 < entry.id ∧ entry.id < 2 ^ 32

/-- The id 1 is taken and so is one of the last two. -/
def Exhausted (s : RequestRows Address) : Prop :=
  (∃ entry ∈ s.m_entries, UINT_MAX - 1 ≤ entry.id) ∧ ∃ entry ∈ s.m_entries, entry.id = 1

variable [DecidableEq Address]

/-- One step, where a new request is saved while its id is not exhausted. -/
inductive Step (isValid : Address → Bool) : RequestRows Address → RequestRows Address → Prop
  | saveNew {s} (store request) : ¬ Exhausted s → Step isValid s (saveNew store s request)
  | saveUpdate {s} (store pending request id) : Step isValid s (saveUpdate store s pending request id)
  | mark {s} (store address) : Step isValid s (markReceiveRequestPayment store s address)
  | label {s} (store address label) :
      Step isValid s (syncPaymentRequestNoteToAddress store s address label)
  | remove {s} (store id) : Step isValid s (removeReceiveRequest store s isValid id)
  | reload {s} (entries) : entries.Perm s.receive_requests →
      Step isValid s { s with m_entries := entries }

/-- The requests of a run from those a wallet stores. -/
def Reached (isValid : Address → Bool) (s : RequestRows Address) : Prop :=
  ∃ loaded, Loaded loaded ∧ Relation.ReflTransGen (Step isValid) loaded s

/-- The next id is positive, fits and names nothing yet, and a save under it replaces nothing. -/
structure SavesFresh (s : RequestRows Address) : Prop where
  positive : 0 < nextPaymentRequestId s
  fits : nextPaymentRequestId s < 2 ^ 32
  history : ∀ entry ∈ s.m_entries, entry.id ≠ nextPaymentRequestId s
  stored : ∀ entry ∈ s.receive_requests, entry.id ≠ nextPaymentRequestId s
  keepsHistory : ∀ store request, ∀ entry ∈ s.m_entries, entry ∈ (saveNew store s request).m_entries
  keepsStored : ∀ store request, ∀ entry ∈ s.receive_requests,
    entry ∈ (saveNew store s request).receive_requests

end Runs

/-! ## What names the requests -/

section Names

variable {Address : Type} {s s' : RequestRows Address} {entry : QmlRecentRequestEntry Address}
  {entries : List (QmlRecentRequestEntry Address)}

/-- The wallet stores the rows of the history under their keys, and an id is in one of them. -/
structure Named (s : RequestRows Address) : Prop where
  keys : (s.receive_requests.map (·.key)).Perm (s.m_entries.map (·.key))
  nodup : (s.m_entries.map (·.id)).Nodup
  range : ∀ entry ∈ s.m_entries, 0 < entry.id ∧ entry.id < 2 ^ 32

/-- An operation that neither adds nor removes a request. -/
structure SameKeys (s s' : RequestRows Address) : Prop where
  rows : s'.m_entries.map (·.key) = s.m_entries.map (·.key)
  stored : s'.receive_requests.map (·.key) = s.receive_requests.map (·.key)

theorem SameKeys.refl (s : RequestRows Address) : SameKeys s s := ⟨rfl, rfl⟩

theorem SameKeys.trans {s'' : RequestRows Address} (h : SameKeys s s') (h' : SameKeys s' s'') :
    SameKeys s s'' :=
  ⟨h'.rows.trans h.rows, h'.stored.trans h.stored⟩

theorem map_id_eq : entries.map (·.id) = (entries.map (·.key)).map Prod.snd := by
  rw [List.map_map]
  rfl

theorem Named.of_sameKeys (h : Named s) (hsame : SameKeys s s') : Named s' where
  keys := by
    rw [hsame.rows, hsame.stored]
    exact h.keys
  nodup := by
    rw [map_id_eq, hsame.rows, ← map_id_eq]
    exact h.nodup
  range := by
    intro entry hentry
    have hkey : entry.key ∈ s.m_entries.map (·.key) := hsame.rows ▸ List.mem_map_of_mem hentry
    obtain ⟨old, hold, heq⟩ := List.mem_map.mp hkey
    have hid : old.id = entry.id := congrArg Prod.snd heq
    rw [← hid]
    exact h.range old hold

theorem key_eq_of_id (hnodup : (entries.map (·.id)).Nodup) (hkey : entry.key ∈ entries.map (·.key))
    {other : QmlRecentRequestEntry Address} (hother : other ∈ entries) (hid : other.id = entry.id) :
    entry.key = other.key := by
  obtain ⟨row, hrow, heq⟩ := List.mem_map.mp hkey
  have hrowid : row.id = other.id := (congrArg Prod.snd heq).trans hid.symm
  rw [← heq, List.inj_on_of_nodup_map hnodup hrow hother hrowid]

theorem map_key_prependOrReplace (hnodup : (entries.map (·.id)).Nodup)
    (hkey : entry.key ∈ entries.map (·.key)) :
    (prependOrReplace entries entry).map (·.key) = entries.map (·.key) := by
  have hid : entry.id ∈ entries.map (·.id) := by
    rw [map_id_eq]
    exact List.mem_map_of_mem (f := Prod.snd) hkey
  rw [prependOrReplace_known hnodup hid, List.map_map]
  apply List.map_congr_left
  intro other hother
  simp only [Function.comp_apply]
  split
  · exact key_eq_of_id hnodup hkey hother ‹_›
  · rfl

theorem foldl_sameKeys {step : RequestRows Address → QmlRecentRequestEntry Address → RequestRows Address}
    (hstep : ∀ {s entry}, Named s → entry.key ∈ s.m_entries.map (·.key) → SameKeys s (step s entry))
    (h : Named s) (hentries : ∀ entry ∈ entries, entry.key ∈ s.m_entries.map (·.key)) :
    SameKeys s (entries.foldl step s) := by
  induction entries generalizing s with
  | nil => exact .refl s
  | cons entry entries ih =>
    simp only [List.forall_mem_cons] at hentries
    have hfirst := hstep h hentries.1
    apply hfirst.trans
    apply ih (h.of_sameKeys hfirst)
    rw [hfirst.rows]
    exact hentries.2

theorem Named.reload (h : Named s) {entries : List (QmlRecentRequestEntry Address)}
    (hperm : entries.Perm s.receive_requests) : Named { s with m_entries := entries } where
  keys := (hperm.map _).symm
  nodup := by
    have hkeys := (hperm.map (·.key)).trans h.keys
    have hids := hkeys.map Prod.snd
    rw [← map_id_eq, ← map_id_eq] at hids
    exact hids.nodup_iff.mpr h.nodup
  range := by
    intro entry hentry
    have hkey : entry.key ∈ s.m_entries.map (·.key) :=
      h.keys.mem_iff.mp (List.mem_map_of_mem (hperm.mem_iff.mp hentry))
    obtain ⟨old, hold, heq⟩ := List.mem_map.mp hkey
    have hid : old.id = entry.id := congrArg Prod.snd heq
    rw [← hid]
    exact h.range old hold

variable [DecidableEq Address] {store : Int → Bool} {isValid : Address → Bool}

theorem map_key_setAddressReceiveRequest (hkey : entry.key ∈ entries.map (·.key)) :
    (setAddressReceiveRequest entries entry).map (·.key) = entries.map (·.key) := by
  rw [setAddressReceiveRequest, if_pos hkey, List.map_map]
  apply List.map_congr_left
  intro other hother
  simp only [Function.comp_apply]
  split
  · exact Eq.symm ‹_›
  · rfl

theorem writeEntry_sameKeys (h : Named s) (hkey : entry.key ∈ s.m_entries.map (·.key)) :
    SameKeys s (writeEntry s entry) where
  rows := map_key_prependOrReplace h.nodup hkey
  stored := map_key_setAddressReceiveRequest (h.keys.mem_iff.mpr hkey)

theorem saveUpdate_sameKeys (h : Named s) {pending : Bool} {request : PaymentRequest Address} {id : Int} :
    SameKeys s (saveUpdate store s pending request id) := by
  unfold saveUpdate
  split
  · exact .refl s
  split
  · exact .refl s
  · rename_i existing hexisting
    split
    · exact .refl s
    · rename_i hpassed
      obtain ⟨hin, hid⟩ := mem_of_entryById hexisting
      apply writeEntry_sameKeys h
      have haddress : request.address = existing.address := by
        simp only [mayReplace, Bool.or_eq_true, Bool.not_eq_true', not_or, Bool.and_eq_false_iff,
          decide_eq_false_iff_not, Bool.not_eq_false, not_not] at hpassed
        grind
      have hkey : (requestEntry request id existing.payment_received).key = existing.key :=
        Prod.ext haddress hid.symm
      rw [hkey]
      exact List.mem_map_of_mem hin

theorem markEntry_sameKeys (h : Named s) (hkey : entry.key ∈ s.m_entries.map (·.key)) :
    SameKeys s (markEntry store s entry) := by
  unfold markEntry
  split
  · exact .refl s
  dsimp only
  split
  · exact writeEntry_sameKeys h hkey
  · exact ⟨map_key_prependOrReplace h.nodup hkey, rfl⟩

theorem syncNote_sameKeys {label : String} (h : Named s) (hkey : entry.key ∈ s.m_entries.map (·.key)) :
    SameKeys s (syncNote store label s entry) := by
  unfold syncNote
  split
  · exact .refl s
  · exact writeEntry_sameKeys h hkey

theorem key_mem_of_entriesForAddress {address : Address} :
    ∀ entry ∈ entriesForAddress entries address, entry.key ∈ entries.map (·.key) :=
  fun _ hentry => List.mem_map_of_mem (mem_of_entriesForAddress hentry)

theorem Named.remove (h : Named s) {id : Int} : Named (removeReceiveRequest store s isValid id) := by
  unfold removeReceiveRequest
  split
  · exact h
  · rename_i entry hentry
    split
    · exact h
    obtain ⟨hin, hid⟩ := mem_of_entryById hentry
    have hfilter : s.m_entries.filter (·.id ≠ id) = s.m_entries.filter (·.key ≠ (entry.address, id)) := by
      apply List.filter_congr
      intro other hother
      simp only [ne_eq, decide_eq_decide, not_iff_not]
      constructor
      · intro heq
        rw [List.inj_on_of_nodup_map h.nodup hother hin (heq.trans hid.symm), ← hid]
        rfl
      · exact congrArg Prod.snd
    constructor
    · simp only [removeByRequestId_eq h.nodup, hfilter, eraseAddressReceiveRequest]
      have hmap : ∀ l : List (QmlRecentRequestEntry Address),
          (l.filter (·.key ≠ (entry.address, id))).map (·.key) =
            (l.map (·.key)).filter (· ≠ (entry.address, id)) := by
        intro l
        rw [List.filter_map]
        rfl
      rw [hmap, hmap]
      exact h.keys.filter _
    · simp only [removeByRequestId_eq h.nodup]
      exact h.nodup.sublist (List.filter_sublist.map _)
    · simp only [removeByRequestId_eq h.nodup]
      intro other hother
      exact h.range other (List.mem_of_mem_filter hother)

end Names

/-! ## The next id -/

section NextId

variable {Address : Type} {s s' : RequestRows Address}

theorem maxId_spec (entries : List (QmlRecentRequestEntry Address)) :
    0 ≤ maxId entries ∧ (∀ entry ∈ entries, entry.id ≤ maxId entries) ∧
      (maxId entries = 0 ∨ ∃ entry ∈ entries, entry.id = maxId entries) :=
  foldl_max_id entries 0

theorem nextPaymentRequestId_cases (s : RequestRows Address) :
    (UINT_MAX - 1 ≤ maxId s.m_entries ∧ nextPaymentRequestId s = 1) ∨
      (maxId s.m_entries < UINT_MAX - 1 ∧ nextPaymentRequestId s = maxId s.m_entries + 1) := by
  have hmax := (maxId_spec s.m_entries).1
  simp only [nextPaymentRequestId, Bool.or_eq_true, decide_eq_true_eq]
  unfold UINT_MAX
  split <;> omega

theorem nextPaymentRequestId_range (s : RequestRows Address) :
    0 < nextPaymentRequestId s ∧ nextPaymentRequestId s < 2 ^ 32 := by
  have hmax := (maxId_spec s.m_entries).1
  rcases nextPaymentRequestId_cases s with ⟨-, heq⟩ | ⟨hlt, heq⟩
  · omega
  · simp only [UINT_MAX] at hlt
    omega

/-- The next id names nothing exactly when the ids are not exhausted. -/
theorem nextPaymentRequestId_fresh_iff :
    (∀ entry ∈ s.m_entries, entry.id ≠ nextPaymentRequestId s) ↔ ¬ Exhausted s := by
  obtain ⟨-, hle, hin⟩ := maxId_spec s.m_entries
  rcases nextPaymentRequestId_cases s with ⟨hlast, heq⟩ | ⟨hlt, heq⟩
  · rw [heq]
    have htop : ∃ entry ∈ s.m_entries, UINT_MAX - 1 ≤ entry.id := by
      rcases hin with hzero | ⟨entry, hentry, hid⟩
      · simp only [hzero, UINT_MAX] at hlast
        omega
      · exact ⟨entry, hentry, hid ▸ hlast⟩
    unfold Exhausted
    simp only [htop, true_and, not_exists, not_and, ne_eq]
  · constructor
    · rintro - ⟨⟨entry, hentry, hid⟩, -⟩
      have := hle entry hentry
      omega
    · intro _ entry hentry
      have := hle entry hentry
      omega

theorem Loaded.named (h : Loaded s) : Named s where
  keys := (h.rows.map _).symm
  nodup := (h.rows.map _).nodup_iff.mpr h.nodup
  range entry hentry := h.range entry (h.rows.mem_iff.mp hentry)

variable [DecidableEq Address] {store : Int → Bool} {isValid : Address → Bool}

theorem saveNew_cases (h : Named s) (hfree : ¬ Exhausted s) (request : PaymentRequest Address) :
    saveNew store s request = s ∨
      ∃ entry, entry.id = nextPaymentRequestId s ∧
        saveNew store s request = ⟨entry :: s.m_entries, s.receive_requests ++ [entry]⟩ := by
  have hfresh := nextPaymentRequestId_fresh_iff.mpr hfree
  unfold saveNew
  dsimp only
  split
  · exact .inl rfl
  · refine .inr ⟨requestEntry request (nextPaymentRequestId s) false, rfl, ?_⟩
    have hkey : (requestEntry request (nextPaymentRequestId s) false).key ∉
        s.receive_requests.map (·.key) := by
      intro hin
      obtain ⟨row, hrow, heq⟩ := List.mem_map.mp (h.keys.mem_iff.mp hin)
      exact hfresh row hrow (congrArg Prod.snd heq)
    rw [writeEntry, prependOrReplace_fresh hfresh, setAddressReceiveRequest, if_neg hkey]

theorem Named.save (h : Named s) (hfree : ¬ Exhausted s) (request : PaymentRequest Address) :
    Named (saveNew store s request) := by
  rcases saveNew_cases h hfree request with heq | ⟨entry, hid, heq⟩
  · rw [heq]
    exact h
  · rw [heq]
    constructor
    · simp only [List.map_append, List.map_cons, List.map_nil]
      exact (List.perm_append_singleton _ _).trans (h.keys.cons _)
    · simp only [List.map_cons, List.nodup_cons]
      refine ⟨?_, h.nodup⟩
      intro hin
      obtain ⟨row, hrow, hrowid⟩ := List.mem_map.mp hin
      exact nextPaymentRequestId_fresh_iff.mpr hfree row hrow (hrowid.trans hid)
    · simp only [List.forall_mem_cons]
      exact ⟨hid ▸ nextPaymentRequestId_range s, h.range⟩

theorem Named.step (h : Named s) (hstep : Step isValid s s') : Named s' := by
  cases hstep with
  | saveNew store request hfree => exact h.save hfree request
  | saveUpdate store pending request id => exact h.of_sameKeys (saveUpdate_sameKeys h)
  | mark store address =>
    exact h.of_sameKeys (foldl_sameKeys markEntry_sameKeys h key_mem_of_entriesForAddress)
  | label store address label =>
    exact h.of_sameKeys (foldl_sameKeys syncNote_sameKeys h key_mem_of_entriesForAddress)
  | remove store id => exact h.remove
  | reload entries hperm => exact h.reload hperm

theorem Reached.named (h : Reached isValid s) : Named s := by
  obtain ⟨loaded, hloaded, hrun⟩ := h
  induction hrun with
  | refl => exact hloaded.named
  | tail _ hstep ih => exact ih.step hstep

theorem savesFresh_iff (h : Named s) : SavesFresh s ↔ ¬ Exhausted s := by
  constructor
  · exact fun hfresh => nextPaymentRequestId_fresh_iff.mp hfresh.history
  · intro hfree
    have hfresh := nextPaymentRequestId_fresh_iff.mpr hfree
    refine ⟨(nextPaymentRequestId_range s).1, (nextPaymentRequestId_range s).2, hfresh, ?_, ?_, ?_⟩
    · intro entry hentry heq
      obtain ⟨row, hrow, hkey⟩ := List.mem_map.mp (h.keys.mem_iff.mp (List.mem_map_of_mem hentry))
      exact hfresh row hrow ((congrArg Prod.snd hkey).trans heq)
    · intro store request entry hentry
      rcases saveNew_cases h hfree request with heq | ⟨new, -, heq⟩ <;> rw [heq]
      · exact hentry
      · exact List.mem_cons_of_mem _ hentry
    · intro store request entry hentry
      rcases saveNew_cases h hfree request with heq | ⟨new, -, heq⟩ <;> rw [heq]
      · exact hentry
      · exact List.mem_append_left _ hentry

/-- In a run whose new requests were saved under free ids, the next one is saved so exactly when the ids
are not exhausted. -/
theorem next_id_fresh_iff (h : Reached isValid s) : SavesFresh s ↔ ¬ Exhausted s :=
  savesFresh_iff h.named

end NextId

/-! ## The end of the range -/

def requestOf (id : Int) (payment_received : Bool) : QmlRecentRequestEntry String where
  id := id
  address := toString id
  label := ""
  message := ""
  noteSelf := ""
  amount := 100
  payment_received := payment_received

def twoRequests (id : Int) : RequestRows String where
  m_entries := [requestOf id false, requestOf 1 true]
  receive_requests := [requestOf 1 true, requestOf id false]

theorem reached_twoRequests {id : Int} (hlow : 1 < id) (hhigh : id < 2 ^ 32) :
    Reached (fun _ => true) (twoRequests id) := by
  refine ⟨_, ⟨List.Perm.swap _ _ _, ?_, ?_⟩, .refl⟩
  · simp only [twoRequests, requestOf, List.map_cons, List.map_nil, List.nodup_cons, List.mem_singleton]
    simp
    omega
  · simp only [twoRequests, requestOf, List.forall_mem_cons]
    simp
    omega

/-- After the ids 1 and 2 the next id is fresh. -/
theorem next_id_fresh_three : SavesFresh (twoRequests 2) :=
  (next_id_fresh_iff (reached_twoRequests (by decide) (by decide))).mpr
    (by unfold Exhausted; decide)

/-- With the ids 1 and `2 ^ 32 - 2` the next id is 1, and the paid request goes. -/
theorem next_id_wraps :
    ¬ ∀ s : RequestRows String, Reached (fun _ => true) s → SavesFresh s := by
  intro h
  have hreached : Reached (fun _ => true) (twoRequests 4294967294) :=
    reached_twoRequests (by decide) (by decide)
  have hfresh := h _ hreached
  exact hfresh.history (requestOf 1 true) (by simp [twoRequests]) (by decide)

end RequestRows

end GuiQml.Receive
