import GuiQml.Lib.Keyed
import GuiQml.Receive.Blobs
import Mathlib.Logic.Function.Basic

/-!
# The index of the receive requests

`ReceiveRequestHistoryModel` with its two hashes: the row of an id, and the ids of an address. An access out
of the range of the entries is an error.
-/

namespace GuiQml.Receive.Index

open Blobs (StdString QmlReceiveRequestRecipient)

/-! ## The model -/

/-- The UTF-16 code units. -/
abbrev QString := List UInt16

structure QtApi (QDateTime : Type) where
  fromStdString : StdString → QString
  /-- The number and `ok`. -/
  toLongLong : QString → Option Int64
  /-- Dates compare by it. -/
  toMSecsSinceEpoch : QDateTime → Int

structure OutOfRange where
  row : Int

abbrev Entry := Blobs.QmlRecentRequestEntry

structure ReceiveRequestHistoryModel (QDateTime : Type) where
  m_entries : List (Entry QDateTime) := []
  m_row_by_id : Int64 → Option Int := fun _ => none
  m_ids_by_address : QString → Option (List Int64) := fun _ => none

inductive Event (QDateTime : Type) where
  | prependOrReplace (entry : Entry QDateTime)
  | removeByRequestId (request_id : QString)

namespace ReceiveRequestHistoryModel

section Functions

variable {QDateTime QVariantMap : Type} (api : QtApi QDateTime) (m : ReceiveRequestHistoryModel QDateTime)

/-- `m_entries[row]`. -/
def entryAt (row : Int) : Except OutOfRange (Entry QDateTime) :=
  if row < 0 then .error ⟨row⟩
  else
    match m.m_entries[row.toNat]? with
    | none => .error ⟨row⟩
    | some entry => .ok entry

def indexOfId (id : Int64) : Int := (m.m_row_by_id id).getD (-1)

def addressOf (entry : Entry QDateTime) : QString := api.fromStdString entry.recipient.address

/-- The body of the loop of `rebuildIndex`. -/
def indexEntry : Entry QDateTime × Nat → ReceiveRequestHistoryModel QDateTime
  | (entry, row) =>
    { m with
      m_row_by_id := Function.update m.m_row_by_id entry.id (some row)
      m_ids_by_address := Function.update m.m_ids_by_address (addressOf api entry)
        (some ((m.m_ids_by_address (addressOf api entry)).getD [] ++ [entry.id])) }

def rebuildIndex : ReceiveRequestHistoryModel QDateTime :=
  m.m_entries.zipIdx.foldl (indexEntry api)
    { m with m_row_by_id := fun _ => none, m_ids_by_address := fun _ => none }

/-- The order of `setEntries`. -/
def sortsBefore (a b : Entry QDateTime) : Bool :=
  if api.toMSecsSinceEpoch a.date ≠ api.toMSecsSinceEpoch b.date then
    api.toMSecsSinceEpoch b.date < api.toMSecsSinceEpoch a.date
  else b.id < a.id

def setEntries (entries : List (Entry QDateTime)) : ReceiveRequestHistoryModel QDateTime :=
  rebuildIndex api { m with m_entries := entries.mergeSort fun a b => !sortsBefore api b a }

def prependOrReplace (entry : Entry QDateTime) : Except OutOfRange (ReceiveRequestHistoryModel QDateTime) :=
  let existing := m.indexOfId entry.id
  if 0 ≤ existing then do
    let old ← m.entryAt existing
    let address_changed := old.recipient.address != entry.recipient.address
    let replaced := { m with m_entries := m.m_entries.set existing.toNat entry }
    return if address_changed then rebuildIndex api replaced else replaced
  else
    return rebuildIndex api { m with m_entries := entry :: m.m_entries }

def removeByRequestId (request_id : QString) :
    Except OutOfRange (ReceiveRequestHistoryModel QDateTime × Bool) :=
  match api.toLongLong request_id with
  | none => return (m, false)
  | some id =>
    let row := m.indexOfId id
    if row < 0 then return (m, false)
    else do
      let _ ← m.entryAt row
      return (rebuildIndex api { m with m_entries := m.m_entries.eraseIdx row.toNat }, true)

def entryById (request_id : QString) : Except OutOfRange (Option (Entry QDateTime)) :=
  match api.toLongLong request_id with
  | none => return none
  | some id =>
    let row := m.indexOfId id
    if row < 0 then return none else some <$> m.entryAt row

def entriesForAddress (address : QString) : Except OutOfRange (List (Entry QDateTime)) :=
  if address.isEmpty then return []
  else ((m.m_ids_by_address address).getD []).mapM fun id => m.entryAt (m.indexOfId id)

/-- The same for QML, each entry as a map. -/
def matchingEntriesForAddress (entryMap : Entry QDateTime → QVariantMap) (address : QString) :
    Except OutOfRange (List QVariantMap) :=
  if address.isEmpty then return []
  else ((m.m_ids_by_address address).getD []).mapM fun id => entryMap <$> m.entryAt (m.indexOfId id)

def step : Event QDateTime → Except OutOfRange (ReceiveRequestHistoryModel QDateTime)
  | .prependOrReplace entry => m.prependOrReplace api entry
  | .removeByRequestId request_id => Prod.fst <$> m.removeByRequestId api request_id

def run (events : List (Event QDateTime)) : Except OutOfRange (ReceiveRequestHistoryModel QDateTime) :=
  events.foldlM (step api) m

end Functions

/-! ## What the hashes hold -/

section Indexes

variable {QDateTime : Type} {api : QtApi QDateTime} {m : ReceiveRequestHistoryModel QDateTime}
  {entries entries' done rest : List (Entry QDateTime)} {entry old : Entry QDateTime} {row : Nat} {id : Int64}

/-- What the hashes say of an entry. -/
def mark (api : QtApi QDateTime) (entry : Entry QDateTime) : Int64 × QString := (entry.id, addressOf api entry)

/-- The ids of the entries with the address, in the order of the rows. -/
def idsOf (api : QtApi QDateTime) (entries : List (Entry QDateTime)) (address : QString) : List Int64 :=
  (entries.filter (addressOf api · = address)).map (·.id)

/-- The hashes are those of `entries`. -/
structure Indexes (api : QtApi QDateTime) (m : ReceiveRequestHistoryModel QDateTime)
    (entries : List (Entry QDateTime)) : Prop where
  ids : Keyed (·.id) entries
  rows : ∀ id row, m.m_row_by_id id = some row ↔ ∃ n : Nat, row = n ∧ (entries.map (·.id))[n]? = some id
  addresses : ∀ address, m.m_ids_by_address address =
    if address ∈ entries.map (addressOf api) then some (idsOf api entries address) else none

theorem idsOf_marks (address : QString) :
    idsOf api entries address = ((entries.map (mark api)).filter (·.2 = address)).map (·.1) := by
  rw [List.filter_map, List.map_map]
  rfl

theorem Indexes.congr (h : Indexes api m entries) (hmarks : entries'.map (mark api) = entries.map (mark api)) :
    Indexes api m entries' := by
  have hids : entries'.map (·.id) = entries.map (·.id) := by
    simpa [mark, Function.comp_def] using congrArg (List.map Prod.fst) hmarks
  have haddresses : entries'.map (addressOf api) = entries.map (addressOf api) := by
    simpa [mark, Function.comp_def] using congrArg (List.map Prod.snd) hmarks
  refine ⟨?_, fun id row => ?_, fun address => ?_⟩
  · unfold Keyed
    rw [hids]
    exact h.ids
  · rw [hids]
    exact h.rows id row
  · rw [haddresses, idsOf_marks, hmarks, ← idsOf_marks]
    exact h.addresses address

theorem idsOf_of_not_mem {address : QString} (h : address ∉ entries.map (addressOf api)) :
    idsOf api entries address = [] := by
  rw [idsOf, List.filter_eq_nil_iff.mpr fun entry hentry => ?_, List.map_nil]
  simpa using fun haddress => h (List.mem_map.mpr ⟨entry, hentry, haddress⟩)

/-! ### Rebuilding -/

theorem getElem?_concat_iff {ids : List Int64} {n : Nat} {last : Int64} :
    (ids ++ [last])[n]? = some id ↔ ids[n]? = some id ∨ n = ids.length ∧ last = id := by
  rcases Nat.lt_trichotomy n ids.length with hlt | rfl | hgt
  · simp [List.getElem?_append_left hlt, Nat.ne_of_lt hlt]
  · simp
  · have hlength : (ids ++ [last]).length ≤ n := by
      rw [List.length_append, List.length_singleton]
      exact hgt
    simp [List.getElem?_eq_none hlength, List.getElem?_eq_none (Nat.le_of_lt hgt), Nat.ne_of_gt hgt]

theorem idsOf_concat (address : QString) : idsOf api (done ++ [entry]) address =
    idsOf api done address ++ if addressOf api entry = address then [entry.id] else [] := by
  unfold idsOf
  split
  next haddress => simp [haddress]
  next haddress => simp [haddress]

theorem Indexes.indexEntry (h : Indexes api m done) (hids : Keyed (·.id) (done ++ [entry])) :
    Indexes api (m.indexEntry api (entry, done.length)) (done ++ [entry]) := by
  have hnew : entry.id ∉ done.map (·.id) := by
    unfold Keyed at hids
    rw [List.map_append, List.nodup_append] at hids
    exact fun hmem => hids.2.2 _ hmem _ (by simp) rfl
  refine ⟨hids, fun id row => ?_, fun address => ?_⟩
  · simp only [List.map_append, List.map_singleton, getElem?_concat_iff, List.length_map]
    by_cases hid : id = entry.id
    · subst hid
      have hbefore : ∀ n : Nat, (done.map (·.id))[n]? ≠ some entry.id :=
        fun n hn => hnew (List.mem_of_getElem? hn)
      simp only [ReceiveRequestHistoryModel.indexEntry, Function.update_self, hbefore]
      simp [eq_comm]
    · simp [ReceiveRequestHistoryModel.indexEntry, Function.update_of_ne hid, h.rows, Ne.symm hid]
  · rw [idsOf_concat]
    by_cases haddress : addressOf api entry = address
    · subst haddress
      simp only [ReceiveRequestHistoryModel.indexEntry, Function.update_self, h.addresses]
      split
      next => simp
      next hnone => simp [idsOf_of_not_mem hnone]
    · simp [ReceiveRequestHistoryModel.indexEntry, h.addresses, haddress, Ne.symm haddress]

theorem Indexes.foldl (h : Indexes api m done) (hids : Keyed (·.id) (done ++ rest)) :
    Indexes api ((rest.zipIdx done.length).foldl (ReceiveRequestHistoryModel.indexEntry api) m)
      (done ++ rest) := by
  induction rest generalizing m done with
  | nil => simpa using h
  | cons entry rest ih =>
    rw [List.append_cons] at hids ⊢
    have hstep := h.indexEntry (hids.sublist (List.sublist_append_left ..))
    have hrest := ih hstep hids
    rwa [List.length_append, List.length_singleton] at hrest

theorem rebuildIndex_m_entries : (m.rebuildIndex api).m_entries = m.m_entries := by
  have hfoldl : ∀ (l : List (Entry QDateTime × Nat)) (m : ReceiveRequestHistoryModel QDateTime),
      (l.foldl (ReceiveRequestHistoryModel.indexEntry api) m).m_entries = m.m_entries := by
    intro l
    induction l with
    | nil => exact fun m => rfl
    | cons pair l ih => exact fun m => ih _
  exact hfoldl _ _

/-- The hashes are those of the entries. -/
def Indexed (api : QtApi QDateTime) (m : ReceiveRequestHistoryModel QDateTime) : Prop :=
  Indexes api m m.m_entries

theorem rebuildIndex_indexed (hids : Keyed (·.id) m.m_entries) : Indexed api (m.rebuildIndex api) := by
  unfold Indexed
  rw [rebuildIndex_m_entries]
  have hempty : Indexes api { m with m_row_by_id := fun _ => none, m_ids_by_address := fun _ => none } [] :=
    ⟨Keyed.nil, by simp, by simp⟩
  exact hempty.foldl hids

/-! ### Reading -/

theorem entryAt_ofNat (hentry : m.m_entries[row]? = some entry) : m.entryAt row = .ok entry := by
  unfold entryAt
  rw [if_neg (Int.not_lt.mpr (Int.natCast_nonneg row)), Int.toNat_natCast, hentry]

/-- An id is found where a search of the entries finds it. -/
theorem Indexed.lookup (h : Indexed api m) (id : Int64) :
    (m.indexOfId id = -1 ∧ m.m_entries.find? (·.id = id) = none) ∨
      ∃ (row : Nat) (entry : Entry QDateTime), m.indexOfId id = row ∧ m.m_entries[row]? = some entry ∧
        entry.id = id ∧ m.m_entries.find? (·.id = id) = some entry := by
  unfold indexOfId
  cases hrow : m.m_row_by_id id with
  | none =>
    refine .inl ⟨rfl, Keyed.find?_eq_none.mpr fun hmem => ?_⟩
    obtain ⟨n, hn⟩ := List.mem_iff_getElem?.mp hmem
    have hsome := (h.rows id n).mpr ⟨n, rfl, hn⟩
    rw [hrow] at hsome
    cases hsome
  | some row =>
    obtain ⟨n, rfl, hn⟩ := (h.rows id row).mp hrow
    rw [List.getElem?_map, Option.map_eq_some_iff] at hn
    obtain ⟨entry, hentry, hid⟩ := hn
    refine .inr ⟨n, entry, rfl, hentry, hid, ?_⟩
    cases hfind : m.m_entries.find? (·.id = id) with
    | none =>
      have hmem : id ∈ m.m_entries.map (·.id) := List.mem_map.mpr ⟨entry, List.mem_of_getElem? hentry, hid⟩
      exact absurd hmem (Keyed.find?_eq_none.mp hfind)
    | some found =>
      obtain ⟨hfound, hkey⟩ := Keyed.of_find? hfind
      rw [h.ids.inj hfound (List.mem_of_getElem? hentry) (hkey.trans hid.symm)]

theorem Indexed.entryAt_of_mem (h : Indexed api m) (hentry : entry ∈ m.m_entries) :
    m.entryAt (m.indexOfId entry.id) = .ok entry := by
  rcases h.lookup entry.id with ⟨-, hnone⟩ | ⟨row, found, hrow, hfound, hid, -⟩
  · exact absurd (List.mem_map_of_mem hentry) (Keyed.find?_eq_none.mp hnone)
  · rw [hrow, entryAt_ofNat hfound, h.ids.inj (List.mem_of_getElem? hfound) hentry hid]

theorem Indexed.entryById (h : Indexed api m) (request_id : QString) : m.entryById api request_id =
    .ok ((api.toLongLong request_id).bind fun id => m.m_entries.find? (·.id = id)) := by
  unfold ReceiveRequestHistoryModel.entryById
  cases api.toLongLong request_id with
  | none => rfl
  | some id =>
    rcases h.lookup id with ⟨hrow, hfind⟩ | ⟨row, entry, hrow, hentry, -, hfind⟩
    · simp only [hrow, Option.bind_some, hfind]
      rfl
    · simp only [hrow, if_neg (Int.not_lt.mpr (Int.natCast_nonneg row)), entryAt_ofNat hentry,
        Option.bind_some, hfind]
      rfl

theorem Indexed.ids_getD (h : Indexed api m) (address : QString) :
    (m.m_ids_by_address address).getD [] = idsOf api m.m_entries address := by
  rw [h.addresses]
  split
  next => rfl
  next hnone => rw [idsOf_of_not_mem hnone, Option.getD_none]

theorem mapM_ok {α β ε : Type} {f : α → Except ε β} {g : α → β} {l : List α} (h : ∀ a ∈ l, f a = .ok (g a)) :
    l.mapM f = .ok (l.map g) := by
  induction l with
  | nil => rfl
  | cons a l ih =>
    rw [List.mapM_cons, h a (List.mem_cons_self ..), ih fun b hb => h b (List.mem_cons_of_mem _ hb)]
    rfl

theorem Indexed.matchingEntriesForAddress (h : Indexed api m) {QVariantMap : Type}
    (entryMap : Entry QDateTime → QVariantMap) (address : QString) :
    m.matchingEntriesForAddress entryMap address = .ok (if address.isEmpty then []
      else (m.m_entries.filter (addressOf api · = address)).map entryMap) := by
  unfold ReceiveRequestHistoryModel.matchingEntriesForAddress
  split
  next => rfl
  next =>
    rw [h.ids_getD, idsOf, List.mapM_map]
    refine mapM_ok fun entry hentry => ?_
    rw [Function.comp_apply, h.entryAt_of_mem (List.mem_of_mem_filter hentry)]
    rfl

theorem Indexed.entriesForAddress (h : Indexed api m) (address : QString) :
    m.entriesForAddress address = .ok (if address.isEmpty then []
      else m.m_entries.filter (addressOf api · = address)) := by
  have hmatching := h.matchingEntriesForAddress (fun entry => entry) address
  unfold ReceiveRequestHistoryModel.matchingEntriesForAddress at hmatching
  simpa [ReceiveRequestHistoryModel.entriesForAddress] using hmatching

/-! ### Writing -/

theorem map_set_of_eq {α β : Type} {f : α → β} {l : List α} {n : Nat} {a b : α} (hget : l[n]? = some b)
    (heq : f a = f b) : (l.set n a).map f = l.map f := by
  obtain ⟨hn, rfl⟩ := List.getElem?_eq_some_iff.mp hget
  rw [List.map_set, heq, ← List.getElem_map f, List.set_getElem_self]
  simpa using hn

theorem Indexed.prependOrReplace (h : Indexed api m) (entry : Entry QDateTime) :
    ∃ m', m.prependOrReplace api entry = .ok m' ∧ Indexed api m' := by
  unfold ReceiveRequestHistoryModel.prependOrReplace
  rcases h.lookup entry.id with ⟨hrow, hfind⟩ | ⟨row, old, hrow, hold, hid, -⟩
  · simp only [hrow]
    exact ⟨_, rfl, rebuildIndex_indexed (h.ids.cons (Keyed.find?_eq_none.mp hfind))⟩
  · simp only [hrow, Int.natCast_nonneg, if_true, entryAt_ofNat hold, Int.toNat_natCast]
    refine ⟨_, rfl, ?_⟩
    split
    next =>
      refine rebuildIndex_indexed ?_
      unfold Keyed
      rw [map_set_of_eq hold hid.symm]
      exact h.ids
    next hsame =>
      have haddress : old.recipient.address = entry.recipient.address := by simpa using hsame
      have hkept : Indexes api { m with m_entries := m.m_entries.set row entry } m.m_entries :=
        ⟨h.ids, h.rows, h.addresses⟩
      exact hkept.congr (map_set_of_eq hold (by simp [mark, hid, addressOf, haddress]))

theorem Indexed.removeByRequestId (h : Indexed api m) (request_id : QString) :
    ∃ m' removed, m.removeByRequestId api request_id = .ok (m', removed) ∧ Indexed api m' := by
  unfold ReceiveRequestHistoryModel.removeByRequestId
  cases api.toLongLong request_id with
  | none => exact ⟨m, false, rfl, h⟩
  | some id =>
    rcases h.lookup id with ⟨hrow, -⟩ | ⟨row, entry, hrow, hentry, -, -⟩
    · simp only [hrow]
      exact ⟨m, false, rfl, h⟩
    · simp only [hrow, if_neg (Int.not_lt.mpr (Int.natCast_nonneg row)), entryAt_ofNat hentry, Int.toNat_natCast]
      exact ⟨_, true, rfl, rebuildIndex_indexed (h.ids.sublist (List.eraseIdx_sublist ..))⟩

theorem Indexed.step (h : Indexed api m) (event : Event QDateTime) :
    ∃ m', m.step api event = .ok m' ∧ Indexed api m' := by
  cases event with
  | prependOrReplace entry => exact h.prependOrReplace entry
  | removeByRequestId request_id =>
    obtain ⟨m', removed, hrun, hm'⟩ := h.removeByRequestId request_id
    refine ⟨m', ?_, hm'⟩
    simp only [ReceiveRequestHistoryModel.step, hrun]
    rfl

theorem Indexed.run (h : Indexed api m) (events : List (Event QDateTime)) :
    ∃ m', m.run api events = .ok m' ∧ Indexed api m' := by
  induction events generalizing m with
  | nil => exact ⟨m, rfl, h⟩
  | cons event events ih =>
    obtain ⟨m', hstep, hm'⟩ := h.step event
    obtain ⟨m'', hrun, hm''⟩ := ih hm'
    refine ⟨m'', ?_, hm''⟩
    unfold ReceiveRequestHistoryModel.run at hrun ⊢
    rw [List.foldlM_cons, hstep]
    exact hrun

theorem setEntries_indexed (hids : Keyed (·.id) entries) : Indexed api (m.setEntries api entries) :=
  rebuildIndex_indexed ((List.mergeSort_perm _ _).map _ |>.nodup_iff.mpr hids)

end Indexes

/-- Whatever is stored, replaced and removed, the hashes are those of the entries, no access is out of range,
and a lookup finds what a search of the entries does. Nothing is looked up under the empty address. -/
theorem lookups_of_run {QDateTime QVariantMap : Type} (api : QtApi QDateTime)
    (m₀ : ReceiveRequestHistoryModel QDateTime) {entries : List (Entry QDateTime)}
    (hids : (entries.map (·.id)).Nodup) (events : List (Event QDateTime)) :
    ∃ m, (m₀.setEntries api entries).run api events = .ok m ∧ Indexed api m ∧
      (∀ request_id, m.entryById api request_id =
        .ok ((api.toLongLong request_id).bind fun id => m.m_entries.find? (·.id = id))) ∧
      (∀ address, m.entriesForAddress address =
        .ok (if address.isEmpty then [] else m.m_entries.filter (addressOf api · = address))) ∧
      ∀ (entryMap : Entry QDateTime → QVariantMap) (address : QString),
        m.matchingEntriesForAddress entryMap address = .ok (if address.isEmpty then []
          else (m.m_entries.filter (addressOf api · = address)).map entryMap) := by
  have hset : Indexed api (m₀.setEntries api entries) := setEntries_indexed hids
  obtain ⟨m, hrun, hm⟩ := hset.run events
  exact ⟨m, hrun, hm, hm.entryById, hm.entriesForAddress, hm.matchingEntriesForAddress⟩

/-! ## An ASCII history -/

def isDigit (c : UInt16) : Bool := 48 ≤ c && c ≤ 57

/-- ASCII text, numbers without a sign, and dates as their milliseconds. -/
def ascii : QtApi Int where
  fromStdString bytes := bytes.map UInt8.toUInt16
  toLongLong text :=
    let n : Nat := text.foldl (fun n c => 10 * n + (c.toNat - 48)) 0
    if text ≠ [] ∧ text.all isDigit ∧ n < 2 ^ 63 then some (Int64.ofNat n) else none
  toMSecsSinceEpoch msecs := msecs

/-- A request for one of two addresses. -/
def request (id : Int64) (address : UInt8) : Entry Int := { id, date := 0, recipient := { address := [address] } }

/-- A request moves to the other address, and then one goes. -/
theorem lookups_after_move : ∃ m, (ReceiveRequestHistoryModel.setEntries ascii {}
      [request 1 97, request 2 97, request 3 98]).run ascii
        [.prependOrReplace (request 2 98), .removeByRequestId [51], .prependOrReplace (request 4 97)] = .ok m ∧
    Indexed ascii m ∧
      (∀ request_id, m.entryById ascii request_id =
        .ok ((ascii.toLongLong request_id).bind fun id => m.m_entries.find? (·.id = id))) ∧
      (∀ address, m.entriesForAddress address =
        .ok (if address.isEmpty then [] else m.m_entries.filter (addressOf ascii · = address))) ∧
      ∀ (entryMap : Entry Int → Int64) (address : QString),
        m.matchingEntriesForAddress entryMap address = .ok (if address.isEmpty then []
          else (m.m_entries.filter (addressOf ascii · = address)).map entryMap) :=
  lookups_of_run ascii {} (by decide) _

/-- A request without an address is in the list, but no lookup of the empty address finds it. -/
theorem empty_address_not_found : ¬∀ (entries : List (Entry Int)) (events : List (Event Int))
    (m : ReceiveRequestHistoryModel Int), (entries.map (·.id)).Nodup →
      (ReceiveRequestHistoryModel.setEntries ascii {} entries).run ascii events = .ok m →
        ∀ address, m.entriesForAddress address = .ok (m.m_entries.filter (addressOf ascii · = address)) := by
  intro h
  have hfound := h [{ id := 1, date := 0 }] [] _ (by decide) rfl []
  rw [setEntries, List.mergeSort_singleton, rebuildIndex_m_entries] at hfound
  exact absurd hfound fun heq => by cases heq

end ReceiveRequestHistoryModel

end GuiQml.Receive.Index
