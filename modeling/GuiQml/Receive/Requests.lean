import Mathlib.Data.List.Nodup
import Mathlib.Data.Finset.Dedup

/-!
# Receive requests

`ReceiveRequestHistoryModel`, for the entries that are shown and for those that the wallet stores. An id
names one entry. Dates, rows and the serialization are left out.
-/

namespace GuiQml.Receive

structure QmlRecentRequestEntry (Address : Type) where
  id : Int
  address : Address
  label : String
  message : String
  noteSelf : String
  amount : Int
  payment_received : Bool := false

structure ReceiveRequestHistoryModel (Address : Type) where
  m_entries : List (QmlRecentRequestEntry Address)
  nodup : (m_entries.map (·.id)).Nodup

namespace ReceiveRequestHistoryModel

variable {Address : Type} [DecidableEq Address] (r : ReceiveRequestHistoryModel Address)
  {entry other : QmlRecentRequestEntry Address} {id : Int} {address : Address}

def entryById (id : Int) : Option (QmlRecentRequestEntry Address) := r.m_entries.find? (·.id = id)

def entriesForAddress (address : Address) : List (QmlRecentRequestEntry Address) :=
  r.m_entries.filter (·.address = address)

def requestAddresses : Finset Address := (r.m_entries.map (·.address)).toFinset

def maxId : Int := r.m_entries.foldl (fun max_id entry => max max_id entry.id) 0

def replaced (entry : QmlRecentRequestEntry Address) : List (QmlRecentRequestEntry Address) :=
  r.m_entries.map fun other => if other.id = entry.id then entry else other

omit [DecidableEq Address] in
theorem map_id_replaced : (r.replaced entry).map (·.id) = r.m_entries.map (·.id) := by
  unfold replaced
  rw [List.map_map]
  refine List.map_congr_left fun other _ => ?_
  rw [Function.comp_apply]
  split
  · rename_i heq
    exact heq.symm
  · rfl

def prependOrReplace (entry : QmlRecentRequestEntry Address) : ReceiveRequestHistoryModel Address :=
  if h : entry.id ∈ r.m_entries.map (·.id) then
    ⟨r.replaced entry, by rw [map_id_replaced]; exact r.nodup⟩
  else ⟨entry :: r.m_entries, List.nodup_cons.mpr ⟨h, r.nodup⟩⟩

def removeByRequestId (id : Int) : ReceiveRequestHistoryModel Address where
  m_entries := r.m_entries.filter (·.id ≠ id)
  nodup := r.nodup.sublist (List.filter_sublist.map _)

/-! ## Lookups -/

variable {r}

omit [DecidableEq Address] in
theorem eq_of_id (h : entry ∈ r.m_entries) (h' : other ∈ r.m_entries) (hid : entry.id = other.id) :
    entry = other :=
  List.inj_on_of_nodup_map r.nodup h h' hid

omit [DecidableEq Address] in
theorem entryById_eq_some :
    r.entryById id = some entry ↔ entry ∈ r.m_entries ∧ entry.id = id := by
  unfold entryById
  constructor
  · intro h
    exact ⟨List.mem_of_find?_eq_some h, by simpa using List.find?_some h⟩
  · rintro ⟨hin, rfl⟩
    cases hfind : r.m_entries.find? (·.id = entry.id) with
    | none => simpa using List.find?_eq_none.mp hfind entry hin
    | some found =>
      have hid : found.id = entry.id := by simpa using List.find?_some hfind
      rw [eq_of_id (List.mem_of_find?_eq_some hfind) hin hid]

omit [DecidableEq Address] in
theorem mem_prependOrReplace : other ∈ (r.prependOrReplace entry).m_entries ↔
    other = entry ∨ other ∈ r.m_entries ∧ other.id ≠ entry.id := by
  unfold prependOrReplace
  split
  · rename_i hid
    unfold replaced
    simp only [List.mem_map]
    constructor
    · rintro ⟨old, hold, rfl⟩
      split
      · exact .inl rfl
      · rename_i hne
        exact .inr ⟨hold, hne⟩
    · rintro (rfl | ⟨hin, hne⟩)
      · obtain ⟨old, hold, heq⟩ := List.mem_map.mp hid
        exact ⟨old, hold, if_pos heq⟩
      · exact ⟨other, hin, if_neg hne⟩
  · rename_i hid
    simp only [List.mem_cons]
    constructor
    · rintro (h | h)
      · exact .inl h
      · exact .inr ⟨h, fun heq => hid (heq ▸ List.mem_map_of_mem h)⟩
    · exact Or.imp_right And.left

omit [DecidableEq Address] in
theorem mem_removeByRequestId : other ∈ (r.removeByRequestId id).m_entries ↔
    other ∈ r.m_entries ∧ other.id ≠ id := by
  simp [removeByRequestId]

theorem mem_requestAddresses :
    address ∈ r.requestAddresses ↔ ∃ entry ∈ r.m_entries, entry.address = address := by
  simp [requestAddresses]

theorem mem_entriesForAddress :
    entry ∈ r.entriesForAddress address ↔ entry ∈ r.m_entries ∧ entry.address = address := by
  simp [entriesForAddress]

omit [DecidableEq Address] in
theorem foldl_max_id (l : List (QmlRecentRequestEntry Address)) (m : Int) :
    m ≤ l.foldl (fun max_id entry => max max_id entry.id) m ∧
      (∀ entry ∈ l, entry.id ≤ l.foldl (fun max_id entry => max max_id entry.id) m) ∧
      (l.foldl (fun max_id entry => max max_id entry.id) m = m ∨
        ∃ entry ∈ l, entry.id = l.foldl (fun max_id entry => max max_id entry.id) m) := by
  induction l generalizing m with
  | nil => simp
  | cons x l ih =>
    obtain ⟨hm, hl, hin⟩ := ih (max m x.id)
    simp only [List.foldl_cons, List.mem_cons]
    refine ⟨(le_max_left _ _).trans hm, ?_, ?_⟩
    · rintro entry (rfl | hentry)
      · exact (le_max_right _ _).trans hm
      · exact hl entry hentry
    · rcases hin with heq | ⟨entry, hentry, heq⟩
      · rcases le_total m x.id with hle | hle
        · exact .inr ⟨x, .inl rfl, by rw [heq, max_eq_right hle]⟩
        · exact .inl (by rw [heq, max_eq_left hle])
      · exact .inr ⟨entry, .inr hentry, heq⟩

end ReceiveRequestHistoryModel

end GuiQml.Receive
