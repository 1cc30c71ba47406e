import GuiQml.Receive.Index
import GuiQml.Receive.RequestIds
import Mathlib.Data.List.InsertIdx

/-!
# The history and its rows

Whatever ids the rows have, the hashes are those that a rebuild makes of them, so that the history does what
`RequestRows` does to the rows alone, and with distinct ids what a search by id does.
-/

namespace GuiQml.Receive.Index.ReceiveRequestHistoryModel

open RequestRows (indexOfId_eq_none indexOfId_eq_some)

variable {QDateTime : Type} {api : QtApi QDateTime} {m : ReceiveRequestHistoryModel QDateTime}
  {entries entries' done rest : List (Entry QDateTime)} {entry : Entry QDateTime} {id : Int64}

/-- An entry with the texts as they are shown. -/
structure Views (api : QtApi QDateTime) (view : Entry QDateTime → QmlRecentRequestEntry QString) : Prop where
  id : ∀ entry, (view entry).id = entry.id.toInt
  address : ∀ entry, (view entry).address = addressOf api entry

variable {view : Entry QDateTime → QmlRecentRequestEntry QString}

/-! ## The hashes of the rows -/

theorem indexOfId_concat {Address : Type} {entries : List (QmlRecentRequestEntry Address)}
    {entry : QmlRecentRequestEntry Address} {id : Int} : RequestRows.indexOfId id (entries ++ [entry]) =
      if entry.id = id then some entries.length else RequestRows.indexOfId id entries := by
  induction entries with
  | nil => rfl
  | cons head entries ih =>
    simp only [List.cons_append, RequestRows.indexOfId, ih]
    by_cases hid : entry.id = id
    · simp only [hid, if_true, List.length_cons]
    · simp only [hid, if_false]

theorem indexOfId_congr {Address : Type} {entries entries' : List (QmlRecentRequestEntry Address)} {id : Int}
    (hids : entries.map (·.id) = entries'.map (·.id)) :
    RequestRows.indexOfId id entries = RequestRows.indexOfId id entries' := by
  induction entries generalizing entries' with
  | nil =>
    rw [List.map_nil, eq_comm, List.map_eq_nil_iff] at hids
    rw [hids]
  | cons head entries ih =>
    cases entries' with
    | nil => cases hids
    | cons head' entries' =>
      obtain ⟨hhead, htail⟩ := List.cons.inj hids
      simp only [RequestRows.indexOfId, ih htail, hhead]

/-- The hashes lead to the entries: an id to its last row, and an address to its ids. -/
structure Leads (api : QtApi QDateTime) (view : Entry QDateTime → QmlRecentRequestEntry QString)
    (m : ReceiveRequestHistoryModel QDateTime) (entries : List (Entry QDateTime)) : Prop where
  rows : ∀ id, m.m_row_by_id id = (RequestRows.indexOfId id.toInt (entries.map view)).map Int.ofNat
  addresses : ∀ address, (m.m_ids_by_address address).getD [] = idsOf api entries address

theorem Leads.congr (hview : Views api view) (h : Leads api view m entries)
    (hmarks : entries'.map (mark api) = entries.map (mark api)) : Leads api view m entries' := by
  have hids : (entries.map view).map (·.id) = (entries'.map view).map (·.id) := by
    have := congrArg (List.map fun mark : Int64 × QString => mark.1.toInt) hmarks
    simpa [mark, Function.comp_def, hview.id] using this.symm
  refine ⟨fun id => (h.rows id).trans (congrArg _ (indexOfId_congr hids)), fun address => ?_⟩
  rw [h.addresses, idsOf_marks, idsOf_marks, hmarks]

theorem Leads.indexEntry (hview : Views api view) (h : Leads api view m done) :
    Leads api view (m.indexEntry api (entry, done.length)) (done ++ [entry]) := by
  refine ⟨fun id => ?_, fun address => ?_⟩
  · rw [List.map_append, List.map_singleton, indexOfId_concat, hview.id, List.length_map]
    by_cases hid : id = entry.id
    · subst hid
      simp [ReceiveRequestHistoryModel.indexEntry]
    · rw [if_neg fun heq => hid (Int64.toInt_inj.mp heq).symm, ← h.rows]
      exact Function.update_of_ne hid _ _
  · rw [idsOf_concat, ← h.addresses]
    by_cases haddress : addressOf api entry = address
    · subst haddress
      simp [ReceiveRequestHistoryModel.indexEntry]
    · simp [ReceiveRequestHistoryModel.indexEntry, haddress, Ne.symm haddress]

theorem Leads.foldl (hview : Views api view) (h : Leads api view m done) :
    Leads api view ((rest.zipIdx done.length).foldl (ReceiveRequestHistoryModel.indexEntry api) m) (done ++ rest) := by
  induction rest generalizing m done with
  | nil => simpa using h
  | cons entry rest ih =>
    have hentry : Leads api view (m.indexEntry api (entry, done.length)) (done ++ [entry]) :=
      h.indexEntry hview
    have hrest := ih hentry
    rw [List.append_cons]
    rwa [List.length_append, List.length_singleton] at hrest

/-- The hashes are those of the entries, whether an id repeats or not. -/
def Rebuilt (api : QtApi QDateTime) (view : Entry QDateTime → QmlRecentRequestEntry QString)
    (m : ReceiveRequestHistoryModel QDateTime) : Prop := Leads api view m m.m_entries

theorem rebuilt_rebuildIndex (hview : Views api view) (m : ReceiveRequestHistoryModel QDateTime) :
    Rebuilt api view (m.rebuildIndex api) := by
  unfold Rebuilt
  rw [rebuildIndex_m_entries]
  have hempty : Leads api view { m with m_row_by_id := fun _ => none, m_ids_by_address := fun _ => none } [] :=
    ⟨fun _ => rfl, fun _ => rfl⟩
  exact hempty.foldl hview

/-! ## Reading -/

theorem Rebuilt.lookup (hview : Views api view) (h : Rebuilt api view m) (id : Int64) :
    (RequestRows.indexOfId id.toInt (m.m_entries.map view) = none ∧ m.indexOfId id = -1) ∨
      ∃ (row : Nat) (entry : Entry QDateTime), RequestRows.indexOfId id.toInt (m.m_entries.map view) = some row ∧
        m.indexOfId id = row ∧ m.m_entries[row]? = some entry ∧ entry.id = id := by
  unfold ReceiveRequestHistoryModel.indexOfId
  rw [h.rows]
  cases hrow : RequestRows.indexOfId id.toInt (m.m_entries.map view) with
  | none => exact .inl ⟨rfl, rfl⟩
  | some row =>
    obtain ⟨found, hfound, hid⟩ := indexOfId_eq_some hrow
    rw [List.getElem?_map, Option.map_eq_some_iff] at hfound
    obtain ⟨entry, hentry, rfl⟩ := hfound
    rw [hview.id] at hid
    exact .inr ⟨row, entry, rfl, rfl, hentry, Int64.toInt_inj.mp hid⟩

theorem Rebuilt.entryById (hview : Views api view) (h : Rebuilt api view m) (request_id : QString) :
    ∃ entry, m.entryById api request_id = .ok entry ∧ entry.map view =
      (api.toLongLong request_id).bind fun id => RequestRows.entryById (m.m_entries.map view) id.toInt := by
  unfold ReceiveRequestHistoryModel.entryById RequestRows.entryById
  cases api.toLongLong request_id with
  | none => exact ⟨none, rfl, rfl⟩
  | some id =>
    rcases h.lookup hview id with ⟨hnone, hrow⟩ | ⟨row, entry, hsome, hrow, hentry, -⟩
    · refine ⟨none, ?_, by rw [Option.bind_some, hnone]; rfl⟩
      simp only [hrow]
      rfl
    · refine ⟨some entry, ?_, ?_⟩
      · simp only [hrow, if_neg (Int.not_lt.mpr (Int.natCast_nonneg row)), entryAt_ofNat hentry]
        rfl
      · rw [Option.bind_some, hsome, Option.bind_some, List.getElem?_map, hentry]

/-- The entry in the row that an id leads to. -/
def entryOfId (view : Entry QDateTime → QmlRecentRequestEntry QString) (m : ReceiveRequestHistoryModel QDateTime)
    (id : Int64) : Option (Entry QDateTime) :=
  (RequestRows.indexOfId id.toInt (m.m_entries.map view)).bind (m.m_entries[·]?)

theorem mapM_filterMap {α β ε : Type} {f : α → Except ε β} {g : α → Option β} {l : List α}
    (h : ∀ a ∈ l, ∃ b, g a = some b ∧ f a = .ok b) : l.mapM f = .ok (l.filterMap g) := by
  induction l with
  | nil => rfl
  | cons a l ih =>
    obtain ⟨b, hg, hf⟩ := h a (List.mem_cons_self ..)
    rw [List.mapM_cons, hf, ih fun a ha => h a (List.mem_cons_of_mem _ ha), List.filterMap_cons_some hg]
    rfl

/-- Each id under the address leads to a row, though an id that repeats leads to the last one. -/
theorem Rebuilt.matchingEntriesForAddress (hview : Views api view) (h : Rebuilt api view m) {QVariantMap : Type}
    (entryMap : Entry QDateTime → QVariantMap) (address : QString) :
    m.matchingEntriesForAddress entryMap address = .ok (if address.isEmpty then []
      else (idsOf api m.m_entries address).filterMap fun id => (entryOfId view m id).map entryMap) := by
  unfold ReceiveRequestHistoryModel.matchingEntriesForAddress
  split
  · rfl
  rw [h.addresses]
  refine mapM_filterMap fun id hid => ?_
  rcases h.lookup hview id with ⟨hnone, -⟩ | ⟨row, entry, hsome, hrow, hentry, -⟩
  · obtain ⟨entry, hmem, rfl⟩ := List.mem_map.mp hid
    have hne := indexOfId_eq_none.mp hnone _ (List.mem_map_of_mem (List.mem_of_mem_filter hmem))
    exact absurd (hview.id entry) hne
  · refine ⟨entryMap entry, ?_, ?_⟩
    · rw [entryOfId, hsome, Option.bind_some, hentry, Option.map_some]
    · rw [hrow, entryAt_ofNat hentry]
      rfl

theorem Rebuilt.entriesForAddress (hview : Views api view) (h : Rebuilt api view m) {address : QString}
    (haddress : address ≠ []) : ∃ entries, m.entriesForAddress address = .ok entries ∧
      entries.map view = RequestRows.entriesForAddress (m.m_entries.map view) address := by
  have hmatching := h.matchingEntriesForAddress hview (fun entry => entry) address
  rw [if_neg (by simpa using haddress)] at hmatching
  refine ⟨(idsOf api m.m_entries address).filterMap (entryOfId view m), ?_, ?_⟩
  · unfold ReceiveRequestHistoryModel.matchingEntriesForAddress at hmatching
    simpa [ReceiveRequestHistoryModel.entriesForAddress, haddress] using hmatching
  · simp only [RequestRows.entriesForAddress, RequestRows.entryById, entryOfId, idsOf, List.filter_map, List.map_map,
      List.filterMap_map, List.map_filterMap, Option.map_bind, Function.comp_def, hview.id,
      hview.address, List.getElem?_map]

/-! ## Writing -/

theorem Rebuilt.prependOrReplace (hview : Views api view) (h : Rebuilt api view m) (entry : Entry QDateTime) :
    ∃ m', m.prependOrReplace api entry = .ok m' ∧ Rebuilt api view m' ∧
      m'.m_entries.map view = RequestRows.prependOrReplace (m.m_entries.map view) (view entry) := by
  unfold ReceiveRequestHistoryModel.prependOrReplace RequestRows.prependOrReplace
  rw [hview.id]
  rcases h.lookup hview entry.id with ⟨hnone, hrow⟩ | ⟨row, old, hsome, hrow, hold, hid⟩
  · simp only [hrow, hnone]
    exact ⟨_, rfl, rebuilt_rebuildIndex hview _, by rw [rebuildIndex_m_entries, List.map_cons]⟩
  · simp only [hrow, Int.natCast_nonneg, if_true, entryAt_ofNat hold, Int.toNat_natCast, hsome]
    refine ⟨_, rfl, ?_, ?_⟩
    · split
      next => exact rebuilt_rebuildIndex hview _
      next hsame =>
        have haddress : old.recipient.address = entry.recipient.address := by simpa using hsame
        have hkept : Leads api view { m with m_entries := m.m_entries.set row entry } m.m_entries :=
          ⟨h.rows, h.addresses⟩
        exact hkept.congr hview (map_set_of_eq hold (by simp [mark, hid, addressOf, haddress]))
    · split
      next => rw [rebuildIndex_m_entries, List.map_set]
      next => rw [List.map_set]

theorem Rebuilt.removeByRequestId (hview : Views api view) (h : Rebuilt api view m) (request_id : QString) :
    ∃ m' removed, m.removeByRequestId api request_id = .ok (m', removed) ∧ Rebuilt api view m' ∧
      m'.m_entries.map view = (api.toLongLong request_id).elim (m.m_entries.map view) fun id =>
        RequestRows.removeByRequestId (m.m_entries.map view) id.toInt := by
  unfold ReceiveRequestHistoryModel.removeByRequestId RequestRows.removeByRequestId
  cases api.toLongLong request_id with
  | none => exact ⟨m, false, rfl, h, rfl⟩
  | some id =>
    rcases h.lookup hview id with ⟨hnone, hrow⟩ | ⟨row, entry, hsome, hrow, hentry, -⟩
    · simp only [hrow, Option.elim_some, hnone]
      exact ⟨m, false, rfl, h, rfl⟩
    · simp only [hrow, if_neg (Int.not_lt.mpr (Int.natCast_nonneg row)), entryAt_ofNat hentry, Int.toNat_natCast,
        Option.elim_some, hsome]
      exact ⟨_, true, rfl, rebuilt_rebuildIndex hview _, by rw [rebuildIndex_m_entries, List.eraseIdx_map]⟩

/-! ## Runs -/

/-- What an event does to the rows. -/
def rowsStep (api : QtApi QDateTime) (view : Entry QDateTime → QmlRecentRequestEntry QString)
    (rows : List (QmlRecentRequestEntry QString)) : Event QDateTime → List (QmlRecentRequestEntry QString)
  | .prependOrReplace entry => RequestRows.prependOrReplace rows (view entry)
  | .removeByRequestId request_id => (api.toLongLong request_id).elim rows fun id =>
      RequestRows.removeByRequestId rows id.toInt

theorem Rebuilt.step (hview : Views api view) (h : Rebuilt api view m) (event : Event QDateTime) :
    ∃ m', m.step api event = .ok m' ∧ Rebuilt api view m' ∧
      m'.m_entries.map view = rowsStep api view (m.m_entries.map view) event := by
  cases event with
  | prependOrReplace entry => exact h.prependOrReplace hview entry
  | removeByRequestId request_id =>
    obtain ⟨m', removed, hrun, hm', hrows⟩ := h.removeByRequestId hview request_id
    refine ⟨m', ?_, hm', hrows⟩
    simp only [ReceiveRequestHistoryModel.step, hrun]
    rfl

/-- Whatever ids are loaded, no access is out of range, and the rows are those that `RequestRows` has. -/
theorem Rebuilt.run (hview : Views api view) (h : Rebuilt api view m) (events : List (Event QDateTime)) :
    ∃ m', m.run api events = .ok m' ∧ Rebuilt api view m' ∧
      m'.m_entries.map view = events.foldl (rowsStep api view) (m.m_entries.map view) := by
  induction events generalizing m with
  | nil => exact ⟨m, rfl, h, rfl⟩
  | cons event events ih =>
    obtain ⟨m', hstep, hm', hrows⟩ := h.step hview event
    obtain ⟨m'', hrun, hm'', hrows'⟩ := ih hm'
    refine ⟨m'', ?_, hm'', by rw [hrows', hrows, List.foldl_cons]⟩
    unfold ReceiveRequestHistoryModel.run at hrun ⊢
    rw [List.foldlM_cons, hstep]
    exact hrun

theorem rebuilt_setEntries (hview : Views api view) (m : ReceiveRequestHistoryModel QDateTime)
    (entries : List (Entry QDateTime)) : Rebuilt api view (m.setEntries api entries) :=
  rebuilt_rebuildIndex hview _

/-- What an event does to a history without the hashes, whose ids are distinct. -/
def requestsStep (api : QtApi QDateTime) (view : Entry QDateTime → QmlRecentRequestEntry QString)
    (r : Receive.ReceiveRequestHistoryModel QString) : Event QDateTime → Receive.ReceiveRequestHistoryModel QString
  | .prependOrReplace entry => r.prependOrReplace (view entry)
  | .removeByRequestId request_id => (api.toLongLong request_id).elim r fun id => r.removeByRequestId id.toInt

theorem m_entries_requestsStep (r : Receive.ReceiveRequestHistoryModel QString) (event : Event QDateTime) :
    (requestsStep api view r event).m_entries = rowsStep api view r.m_entries event := by
  cases event with
  | prependOrReplace entry => exact RequestRows.m_entries_prependOrReplace r
  | removeByRequestId request_id =>
    simp only [requestsStep, rowsStep]
    cases api.toLongLong request_id with
    | none => rfl
    | some id => exact RequestRows.m_entries_removeByRequestId r

/-- With distinct ids the history does what the one without the hashes does. -/
theorem requests_run (hview : Views api view) (h : Rebuilt api view m) {r : Receive.ReceiveRequestHistoryModel QString}
    (hr : r.m_entries = m.m_entries.map view) (events : List (Event QDateTime)) :
    ∃ m', m.run api events = .ok m' ∧
      (events.foldl (requestsStep api view) r).m_entries = m'.m_entries.map view := by
  obtain ⟨m', hrun, -, hrows⟩ := h.run hview events
  refine ⟨m', hrun, ?_⟩
  rw [hrows, ← hr]
  exact (List.foldl_hom (·.m_entries) fun r event => (m_entries_requestsStep r event).symm).symm

end GuiQml.Receive.Index.ReceiveRequestHistoryModel
