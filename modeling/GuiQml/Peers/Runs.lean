import GuiQml.Peers.Model
import GuiQml.Lib.Reach

/-!
# What the details of a peer show

Details that are not disconnected point to what the node last said of their peer, once the signal of the list
model has reached them. They are disconnected once, when the list comes without their peer.
-/

namespace GuiQml.Peers

variable {model : PeerListModel} {peers : List CNodeCombinedStats} {s : System}

/-- The lists since the details were made. -/
def since (model : PeerListModel) (made : Nat) : List (List CNodeCombinedStats) :=
  (model.m_peers_data :: model.freed).take (model.freed.length + 1 - made)

def Listed (node_id : Int) (peers : List CNodeCombinedStats) : Prop := ∃ rec ∈ peers, rec.nodeStats.nodeid = node_id

abbrev nodeIds (peers : List CNodeCombinedStats) : List Int := peers.map fun rec => rec.nodeStats.nodeid

/-! ## Rows -/

theorem toInt_eq {n : Int} (hlow : -2147483648 ≤ n) (hhigh : n < 2147483648) : toInt n = n := by
  unfold toInt
  apply Int.bmod_eq_of_le <;> omega

theorem Numbered.toInt_eq (h : Numbered peers) {rec : CNodeCombinedStats} (hrec : rec ∈ peers) :
    toInt rec.nodeStats.nodeid = rec.nodeStats.nodeid :=
  Peers.toInt_eq (h.int rec hrec).1 (h.int rec hrec).2

theorem Numbered.row_inj (h : Numbered peers) {row row' : Nat} {rec rec' : CNodeCombinedStats}
    (hrow : peers[row]? = some rec) (hrow' : peers[row']? = some rec')
    (hid : rec.nodeStats.nodeid = rec'.nodeStats.nodeid) : row = row' := by
  have hids (i : Nat) : (nodeIds peers)[i]? = peers[i]?.map fun rec => rec.nodeStats.nodeid :=
    List.getElem?_map
  have hlt : row < (nodeIds peers).length := by
    rw [List.length_map]
    exact (List.getElem?_eq_some_iff.1 hrow).1
  apply (List.getElem?_inj hlt h.keyed).1
  rw [hids, hids, hrow, hrow', Option.map_some, Option.map_some, hid]

theorem rowOf_eq_some (h : Numbered model.m_peers_data) {node_id : Int} {row : Nat}
    (hrow : model.rowOf node_id = some row) :
    ∃ rec, model.m_peers_data[row]? = some rec ∧ rec.nodeStats.nodeid = node_id := by
  unfold PeerListModel.rowOf at hrow
  obtain ⟨hlt, hid, -⟩ := List.findIdx?_eq_some_iff_getElem.1 hrow
  refine ⟨model.m_peers_data[row], List.getElem?_eq_getElem hlt, ?_⟩
  rw [← h.toInt_eq (List.getElem_mem hlt)]
  simpa using hid

theorem rowOf_eq_none (h : Numbered model.m_peers_data) {node_id : Int} (hrow : model.rowOf node_id = none) :
    ¬Listed node_id model.m_peers_data := by
  rintro ⟨rec, hrec, rfl⟩
  unfold PeerListModel.rowOf at hrow
  have hne := List.findIdx?_eq_none_iff.1 hrow rec hrec
  simp [h.toInt_eq hrec] at hne

theorem rowOf_row (h : Numbered model.m_peers_data) {row : Nat} {rec : CNodeCombinedStats}
    (hrow : model.m_peers_data[row]? = some rec) : model.rowOf (toInt rec.nodeStats.nodeid) = some row := by
  have hmem : rec ∈ model.m_peers_data := List.mem_of_getElem? hrow
  rw [h.toInt_eq hmem]
  cases hfound : model.rowOf rec.nodeStats.nodeid with
  | none => exact absurd ⟨rec, hmem, rfl⟩ (rowOf_eq_none h hfound)
  | some row' =>
    obtain ⟨rec', hrow', hid⟩ := rowOf_eq_some h hfound
    rw [h.row_inj hrow' hrow hid]

theorem deref_pointer (row : Nat) : model.deref (model.pointer row) = model.m_peers_data[row]? := by
  simp [PeerListModel.deref, PeerListModel.pointer]

/-! ## The details -/

/-- They point to the row of their peer, which has not left since. -/
structure Follows (model : PeerListModel) (tracked : Tracked) (row : Nat) : Prop where
  m_row : tracked.details.m_row = row
  listed : ∃ rec, model.m_peers_data[row]? = some rec ∧ rec.nodeStats.nodeid = tracked.node_id
  since : ∀ peers ∈ since model tracked.details.made, Listed tracked.node_id peers

/-- What holds of details that no slot is still to be called of. -/
structure Settled (model : PeerListModel) (tracked : Tracked) : Prop where
  follows : tracked.details.m_disconnected = false →
    ∃ row, Follows model tracked row ∧ tracked.details.m_combinedStats = model.pointer row
  missed : tracked.details.m_disconnected = true →
    ∃ peers ∈ since model tracked.details.made, ¬Listed tracked.node_id peers

/-- What holds of details before the slot is called. -/
def Awaits (model : PeerListModel) (tracked : Tracked) : Slot → Prop
  | .onModelDataChanged => ∃ row, Follows model tracked row
  | .onModelReset => ∀ peers ∈ (since model tracked.details.made).tail, Listed tracked.node_id peers

structure Named (tracked : Tracked) : Prop where
  low : -2147483648 ≤ tracked.node_id
  high : tracked.node_id < 2147483648
  eq : tracked.details.m_node_id = tracked.node_id

theorem mem_since {made : Nat} (h : made ≤ model.freed.length) : model.m_peers_data ∈ since model made := by
  unfold since
  obtain ⟨n, hn⟩ : ∃ n, model.freed.length + 1 - made = n + 1 := ⟨model.freed.length - made, by omega⟩
  simp [hn]

theorem since_eq_cons {made : Nat} (h : made ≤ model.freed.length) :
    since model made = model.m_peers_data :: (since model made).tail := by
  unfold since
  obtain ⟨n, hn⟩ : ∃ n, model.freed.length + 1 - made = n + 1 := ⟨model.freed.length - made, by omega⟩
  simp [hn]

/-- What a call of a slot leaves as it was. -/
structure Kept (details details' : PeerDetailsModel) : Prop where
  made : details'.made = details.made
  m_node_id : details'.m_node_id = details.m_node_id
  disconnected : details.m_disconnected = true → details'.m_disconnected = true

theorem kept_call (model : PeerListModel) (details : PeerDetailsModel) (slot : Slot) :
    Kept details (details.call model slot).1 := by
  unfold PeerDetailsModel.call PeerDetailsModel.onModelDataChanged PeerDetailsModel.onModelReset
    PeerDetailsModel.follow PeerDetailsModel.disconnect
  constructor <;> (repeat' split) <;> simp_all

theorem disconnected_call (model : PeerListModel) (details : PeerDetailsModel) (slot : Slot) :
    (details.call model slot).2 = some .disconnected ↔
      details.m_disconnected = false ∧ (details.call model slot).1.m_disconnected = true := by
  unfold PeerDetailsModel.call PeerDetailsModel.onModelDataChanged PeerDetailsModel.onModelReset
    PeerDetailsModel.follow PeerDetailsModel.disconnect
  (repeat' split) <;> simp_all

theorem follows_follow {tracked : Tracked} {row : Nat} {details : PeerDetailsModel}
    (hmade : details.made = tracked.details.made)
    (hlisted : ∃ rec, model.m_peers_data[row]? = some rec ∧ rec.nodeStats.nodeid = tracked.node_id)
    (hsince : ∀ peers ∈ since model tracked.details.made, Listed tracked.node_id peers) :
    Follows model { tracked with details := (details.follow model row).1 } row :=
  ⟨rfl, hlisted, by rw [← hmade] at hsince; exact hsince⟩

theorem settled_onModelDataChanged {tracked : Tracked} (hpeers : Numbered model.m_peers_data) (hnamed : Named tracked)
    (hlive : tracked.details.m_disconnected = false) (h : Awaits model tracked .onModelDataChanged) :
    Settled model { tracked with details := (tracked.details.onModelDataChanged model).1 } := by
  obtain ⟨row, hrow, ⟨rec, hrec, hid⟩, hsince⟩ := h
  have hdata : model.data tracked.details.m_row = some rec := by simp [PeerListModel.data, hrow, hrec]
  have hint : ¬toInt rec.nodeStats.nodeid ≠ tracked.details.m_node_id := by
    rw [hpeers.toInt_eq (List.mem_of_getElem? hrec), hnamed.eq, hid]
    exact not_not_intro rfl
  have hcall : tracked.details.onModelDataChanged model = tracked.details.follow model row := by
    unfold PeerDetailsModel.onModelDataChanged
    simp only [hdata, if_neg hint]
    simp [hrow]
  rw [hcall]
  refine ⟨fun _ => ⟨row, follows_follow rfl ⟨rec, hrec, hid⟩ hsince, rfl⟩, fun hgone => ?_⟩
  simp [PeerDetailsModel.follow, hlive] at hgone

theorem settled_onModelReset {tracked : Tracked} (hpeers : Numbered model.m_peers_data) (hnamed : Named tracked)
    (hmade : tracked.details.made ≤ model.freed.length)
    (hlive : tracked.details.m_disconnected = false) (h : Awaits model tracked .onModelReset) :
    Settled model { tracked with details := (tracked.details.onModelReset model).1 } := by
  unfold PeerDetailsModel.onModelReset
  rw [if_neg (by simp [hlive]), hnamed.eq]
  split
  case h_1 row hfound =>
    obtain ⟨rec, hrec, hid⟩ := rowOf_eq_some hpeers hfound
    have hsince : ∀ peers ∈ since model tracked.details.made, Listed tracked.node_id peers := by
      rw [since_eq_cons hmade]
      exact List.forall_mem_cons.2 ⟨⟨rec, List.mem_of_getElem? hrec, hid⟩, h⟩
    refine ⟨fun _ => ⟨row, follows_follow rfl ⟨rec, hrec, hid⟩ hsince, rfl⟩, fun hgone => ?_⟩
    simp [PeerDetailsModel.follow, hlive] at hgone
  case h_2 hfound =>
    unfold PeerDetailsModel.disconnect
    rw [if_neg (by simp [hlive])]
    exact ⟨fun h => by simp at h, fun _ => ⟨_, mem_since hmade, rowOf_eq_none hpeers hfound⟩⟩

theorem settled_call {tracked : Tracked} {slot : Slot} (hpeers : Numbered model.m_peers_data) (hnamed : Named tracked)
    (hmade : tracked.details.made ≤ model.freed.length)
    (hlive : tracked.details.m_disconnected = false → Awaits model tracked slot)
    (hgone : tracked.details.m_disconnected = true →
      ∃ peers ∈ since model tracked.details.made, ¬Listed tracked.node_id peers) :
    Settled model { tracked with details := (tracked.details.call model slot).1 } := by
  cases hdisc : tracked.details.m_disconnected with
  | false => cases slot with
    | onModelDataChanged => exact settled_onModelDataChanged hpeers hnamed hdisc (hlive hdisc)
    | onModelReset => exact settled_onModelReset hpeers hnamed hmade hdisc (hlive hdisc)
  | true =>
    have hkept := kept_call model tracked.details slot
    refine ⟨fun h => ?_, fun _ => ?_⟩
    · have hnow := hkept.disconnected hdisc
      simp only at h
      rw [hnow] at h
      cases h
    · simp only [hkept.made]
      exact hgone hdisc

/-! ## The list -/

/-- The node's reply either replaces the list or leaves it. -/
def Replaced (model : PeerListModel) (nodes_stats : Option (List CNodeCombinedStats))
    (done : PeerListModel × Option Slot) : Prop :=
  (done.1.m_peers_data = model.m_peers_data ∧ done.1.freed = model.freed ∧ done.2 = none) ∨
  (nodes_stats = some done.1.m_peers_data ∧ done.1.freed = model.m_peers_data :: model.freed ∧
    (done.2 = some .onModelReset ∨
      nodeIds done.1.m_peers_data = nodeIds model.m_peers_data ∧
        (done.2 = some .onModelDataChanged ∨ done.2 = none ∧ done.1.m_peers_data = [])))

theorem map_eq_of_orderChanged {as bs : List CNodeCombinedStats} (hlength : as.length = bs.length)
    (h : PeerListModel.orderChanged as bs = false) :
    nodeIds bs = nodeIds as := by
  induction as generalizing bs with
  | nil => rw [List.eq_nil_of_length_eq_zero hlength.symm]
  | cons a as ih =>
    obtain ⟨b, bs, rfl⟩ := List.exists_cons_of_length_pos (l := bs) (by rw [← hlength]; simp)
    unfold PeerListModel.orderChanged at h
    split at h
    · cases h
    · rename_i hid
      simp only [nodeIds, List.map_cons, not_not.1 hid]
      exact congrArg _ (ih (by simpa using hlength) h)

theorem replaced_refresh (model : PeerListModel) (nodes_stats : Option (List CNodeCombinedStats)) :
    Replaced model nodes_stats (model.refresh nodes_stats) := by
  unfold PeerListModel.refresh
  split
  · exact .inl ⟨rfl, rfl, rfl⟩
  split
  · exact .inl ⟨rfl, rfl, rfl⟩
  · rename_i new
    refine .inr ?_
    simp only
    split
    · exact ⟨rfl, rfl, .inl rfl⟩
    · rename_i hsame
      have hids : nodeIds new = nodeIds model.m_peers_data := by
        apply map_eq_of_orderChanged <;> simp_all
      split
      · exact ⟨rfl, rfl, .inr ⟨hids, .inl rfl⟩⟩
      · rename_i hempty
        exact ⟨rfl, rfl, .inr ⟨hids, .inr ⟨rfl, by simpa using hempty⟩⟩⟩

theorem replaced_backendInitialized (model : PeerListModel) (nodes_stats : Option (List CNodeCombinedStats)) :
    Replaced model nodes_stats (model.backendInitialized nodes_stats) := by
  unfold PeerListModel.backendInitialized
  split
  · exact .inl ⟨rfl, rfl, rfl⟩
  · have h := replaced_refresh { model with m_backend_ready := true } nodes_stats
    simp only
    split <;> exact h

theorem since_replaced {model' : PeerListModel} (hfreed : model'.freed = model.m_peers_data :: model.freed) {made : Nat}
    (h : made ≤ model.freed.length) : since model' made = model'.m_peers_data :: since model made := by
  unfold since
  rw [hfreed, List.length_cons, Nat.sub_add_comm (by omega), List.take_succ_cons]

/-! ## The whole -/

def System.isDisconnected (s : System) (o : Nat) : Bool :=
  s.objects[o]?.any fun tracked => tracked.details.m_disconnected

/-- What holds between two steps of the thread. -/
structure Tracking (s : System) : Prop where
  numbered : Numbered s.model.m_peers_data
  named : ∀ (o : Nat) (t : Tracked), s.objects[o]? = some t → Named t
  made : ∀ (o : Nat) (t : Tracked), s.objects[o]? = some t → t.details.made ≤ s.model.freed.length
  live : ∀ (o : Nat) (t : Tracked), s.objects[o]? = some t →
    (t.details.m_disconnected = false ↔ s.m_detail_models t.node_id = some o)
  there : ∀ (k : Int) (o : Nat), s.m_detail_models k = some o → ∃ t : Tracked, s.objects[o]? = some t ∧ t.node_id = k
  gone : ∀ o, o ∈ s.posted ∨ o ∈ s.deleted ↔ s.isDisconnected o = true
  once : (s.calls.map Prod.snd).Nodup
  missed : ∀ (o : Nat) (t : Tracked), s.objects[o]? = some t → t.details.m_disconnected = true →
    ∃ peers ∈ since s.model t.details.made, ¬Listed t.node_id peers
  awaits : ∀ (slot : Slot) (o : Nat) (t : Tracked), (slot, o) ∈ s.calls → s.objects[o]? = some t →
    t.details.m_disconnected = false → Awaits s.model t slot
  settled : ∀ (o : Nat) (t : Tracked), o ∉ s.calls.map Prod.snd → s.objects[o]? = some t → Settled s.model t
  signals : ∀ o, s.emitted.count (o, .disconnected) = (s.isDisconnected o).toNat

theorem Settled.congr {model' : PeerListModel} {tracked : Tracked} (hpeers : model'.m_peers_data = model.m_peers_data)
    (hfreed : model'.freed = model.freed) (h : Settled model tracked) : Settled model' tracked := by
  have hsince (made : Nat) : since model' made = since model made := by simp [since, hpeers, hfreed]
  refine ⟨fun hlive => ?_, fun hgone => hsince _ ▸ h.missed hgone⟩
  obtain ⟨row, hfollows, hpointer⟩ := h.follows hlive
  refine ⟨row, ⟨hfollows.m_row, hpeers ▸ hfollows.listed, hsince _ ▸ hfollows.since⟩, ?_⟩
  rw [hpointer, PeerListModel.pointer, PeerListModel.pointer, hfreed]

theorem calls_emit {done : PeerListModel × Option Slot} (hidle : s.calls = []) {slot : Slot} {o : Nat} :
    (slot, o) ∈ (s.emit done).calls ↔ done.2 = some slot ∧ o < s.objects.length ∧ o ∉ s.deleted := by
  unfold System.emit
  cases done.2 with
  | none => simp [hidle]
  | some slot' =>
    simp only [List.mem_map, List.mem_filter, List.mem_range, Bool.not_eq_true', List.contains_eq_mem,
      decide_eq_false_iff_not, Prod.mk.injEq, Option.some.injEq]
    constructor
    · rintro ⟨o', ho', rfl, rfl⟩
      exact ⟨rfl, ho'⟩
    · rintro ⟨rfl, ho⟩
      exact ⟨o, ho, rfl, rfl⟩

theorem nodup_calls_emit {done : PeerListModel × Option Slot} (hidle : s.calls = []) :
    ((s.emit done).calls.map Prod.snd).Nodup := by
  unfold System.emit
  cases done.2 with
  | none => simp [hidle]
  | some slot =>
    rw [List.map_map]
    exact (List.nodup_range.filter _).map fun _ _ heq => heq

theorem tracking_replaced {nodes_stats : Option (List CNodeCombinedStats)} {done : PeerListModel × Option Slot}
    (h : Tracking s) (hidle : s.calls = []) (hnumbered : ∀ peers, nodes_stats = some peers → Numbered peers)
    (hdone : Replaced s.model nodes_stats done) : Tracking (s.emit done) := by
  have hsettled (o : Nat) (t : Tracked) (ht : s.objects[o]? = some t) : Settled s.model t :=
    h.settled o t (by simp [hidle]) ht
  have honce := @nodup_calls_emit s done hidle
  rcases hdone with ⟨hpeers, hfreed, hsignal⟩ | ⟨hsome, hfreed, hsignal⟩
  · have hsince (made : Nat) : since done.1 made = since s.model made := by simp [since, hpeers, hfreed]
    refine ⟨show Numbered done.1.m_peers_data from hpeers ▸ h.numbered, h.named,
      show ∀ o t, _ → _ ≤ done.1.freed.length from hfreed ▸ h.made, h.live, h.there, h.gone, honce,
      fun o t ht hgone => ?_, fun slot o t hmem => ?_, fun o t _ ht => (hsettled o t ht).congr hpeers hfreed, h.signals⟩
    · show ∃ peers ∈ since done.1 _, _
      rw [hsince]
      exact h.missed o t ht hgone
    · rw [calls_emit hidle, hsignal] at hmem
      cases hmem.1
  have hsince (o : Nat) (t : Tracked) (ht : s.objects[o]? = some t) :
      since done.1 t.details.made = done.1.m_peers_data :: since s.model t.details.made :=
    since_replaced hfreed (h.made o t ht)
  have hmissed (o : Nat) (t : Tracked) (ht : s.objects[o]? = some t) (hgone : t.details.m_disconnected = true) :
      ∃ list ∈ since done.1 t.details.made, ¬Listed t.node_id list := by
    obtain ⟨list, hlist, hnot⟩ := h.missed o t ht hgone
    exact ⟨list, hsince o t ht ▸ List.mem_cons_of_mem _ hlist, hnot⟩
  refine ⟨hnumbered _ hsome, h.named, fun o t ht => ?_, h.live, h.there, h.gone, honce, hmissed, ?_, ?_, h.signals⟩
  · show _ ≤ done.1.freed.length
    rw [hfreed]
    exact Nat.le_succ_of_le (h.made o t ht)
  · intro slot o t hmem ht hlive
    obtain ⟨row, hfollows, -⟩ := (hsettled o t ht).follows hlive
    rw [calls_emit hidle] at hmem
    rw [hmem.1] at hsignal
    rcases hsignal with hreset | ⟨hids, hchanged | ⟨hnone, -⟩⟩
    · cases hreset
      show ∀ list ∈ (since done.1 t.details.made).tail, Listed t.node_id list
      rw [hsince o t ht]
      exact hfollows.since
    · cases hchanged
      obtain ⟨rec, hrec, hid⟩ := hfollows.listed
      have hrow : (nodeIds done.1.m_peers_data)[row]? = some t.node_id := by
        rw [hids, List.getElem?_map, hrec, Option.map_some, hid]
      rw [List.getElem?_map, Option.map_eq_some_iff] at hrow
      obtain ⟨rec', hrec', hid'⟩ := hrow
      refine ⟨row, hfollows.m_row, ⟨rec', hrec', hid'⟩, ?_⟩
      show ∀ list ∈ since done.1 t.details.made, Listed t.node_id list
      rw [hsince o t ht]
      exact List.forall_mem_cons.2 ⟨⟨rec', List.mem_of_getElem? hrec', hid'⟩, hfollows.since⟩
    · cases hnone
  · intro o t hnot (ht : s.objects[o]? = some t)
    refine ⟨fun hlive => ?_, hmissed o t ht⟩
    obtain ⟨row, hfollows, -⟩ := (hsettled o t ht).follows hlive
    -- Live details are called, unless the list was empty and stays so.
    have hdeleted : o ∉ s.deleted := fun hmem => by
      have hgone := (h.gone o).1 (.inr hmem)
      simp [System.isDisconnected, ht, hlive] at hgone
    have hlt : o < s.objects.length := (List.getElem?_eq_some_iff.1 ht).1
    have hcalled (slot : Slot) (hslot : done.2 = some slot) : o ∈ (s.emit done).calls.map Prod.snd :=
      List.mem_map.2 ⟨(slot, o), (calls_emit hidle).2 ⟨hslot, hlt, hdeleted⟩, rfl⟩
    rcases hsignal with hreset | ⟨hids, hchanged | ⟨-, hempty⟩⟩
    · exact absurd (hcalled _ hreset) hnot
    · exact absurd (hcalled _ hchanged) hnot
    · obtain ⟨rec, hrec, -⟩ := hfollows.listed
      have hold : s.model.m_peers_data = [] := by
        rw [hempty] at hids
        exact List.map_eq_nil_iff.1 hids.symm
      simp [hold] at hrec

/-! ## The objects -/

/-- What holds of each object by itself, whatever the hash and the signals say of it. -/
structure Objects (model : PeerListModel) (calls : List (Slot × Nat)) (objects : List Tracked) : Prop where
  named : ∀ (i : Nat) (t : Tracked), objects[i]? = some t → Named t
  made : ∀ (i : Nat) (t : Tracked), objects[i]? = some t → t.details.made ≤ model.freed.length
  once : (calls.map Prod.snd).Nodup
  missed : ∀ (i : Nat) (t : Tracked), objects[i]? = some t → t.details.m_disconnected = true →
    ∃ peers ∈ since model t.details.made, ¬Listed t.node_id peers
  awaits : ∀ (slot : Slot) (i : Nat) (t : Tracked), (slot, i) ∈ calls → objects[i]? = some t →
    t.details.m_disconnected = false → Awaits model t slot
  settled : ∀ (i : Nat) (t : Tracked), i ∉ calls.map Prod.snd → objects[i]? = some t → Settled model t

section Call

variable {slot : Slot} {o : Nat} {calls : List (Slot × Nat)} {tracked : Tracked} {details : PeerDetailsModel}

/-- The calls behind the first one are of other objects. -/
theorem Tracking.rest (h : Tracking s) (hcalls : s.calls = (slot, o) :: calls) :
    (calls.map Prod.snd).Nodup ∧ (∀ slot' i, (slot', i) ∈ calls → (slot', i) ∈ s.calls ∧ i ≠ o) ∧
      ∀ i, i ∉ calls.map Prod.snd → i ≠ o → i ∉ s.calls.map Prod.snd := by
  have honce := h.once
  rw [hcalls, List.map_cons, List.nodup_cons] at honce
  refine ⟨honce.2, fun slot' i hmem => ?_, fun i hi hne => ?_⟩
  · exact ⟨hcalls ▸ List.mem_cons_of_mem _ hmem, fun heq => honce.1 (List.mem_map.2 ⟨(slot', i), hmem, heq⟩)⟩
  · rw [hcalls, List.map_cons, List.mem_cons, not_or]
    exact ⟨hne, hi⟩

theorem called_cases {objects : List Tracked} {called t : Tracked} {i : Nat}
    (ht : (objects.set o called)[i]? = some t) : i = o ∧ t = called ∨ i ≠ o ∧ objects[i]? = some t := by
  rw [List.getElem?_set] at ht
  split at ht
  · rename_i heq
    split at ht
    · exact .inl ⟨heq.symm, (Option.some.inj ht).symm⟩
    · cases ht
  · rename_i hne
    exact .inr ⟨Ne.symm hne, ht⟩

theorem called_self (htracked : s.objects[o]? = some tracked) (called : Tracked) :
    (s.objects.set o called)[o]? = some called := by
  rw [List.getElem?_set, if_pos rfl, if_pos (List.getElem?_eq_some_iff.1 htracked).1]

theorem called_other {objects : List Tracked} {called : Tracked} {i : Nat} (hne : i ≠ o) :
    (objects.set o called)[i]? = objects[i]? := by
  rw [List.getElem?_set, if_neg (Ne.symm hne)]

theorem objects_called (h : Tracking s) (hcalls : s.calls = (slot, o) :: calls)
    (htracked : s.objects[o]? = some tracked) :
    Objects s.model calls
      (s.objects.set o { tracked with details := (tracked.details.call s.model slot).1 }) := by
  obtain ⟨honce, hrest, hother⟩ := h.rest hcalls
  have hkept := kept_call s.model tracked.details slot
  have hnow := settled_call h.numbered (h.named o tracked htracked) (h.made o tracked htracked)
    (h.awaits slot o tracked (hcalls ▸ List.mem_cons_self) htracked) (h.missed o tracked htracked)
  generalize (tracked.details.call s.model slot).1 = details at hkept hnow ⊢
  refine ⟨fun i t ht => ?_, fun i t ht => ?_, honce, fun i t ht hgone => ?_, fun slot' i t hmem ht hlive => ?_,
    fun i t hi ht => ?_⟩
  · rcases called_cases ht with ⟨-, rfl⟩ | ⟨-, ht⟩
    · have hnamed := h.named o tracked htracked
      exact ⟨hnamed.low, hnamed.high, hkept.m_node_id.trans hnamed.eq⟩
    · exact h.named i t ht
  · rcases called_cases ht with ⟨-, rfl⟩ | ⟨-, ht⟩
    · exact hkept.made ▸ h.made o tracked htracked
    · exact h.made i t ht
  · rcases called_cases ht with ⟨-, rfl⟩ | ⟨-, ht⟩
    · exact hnow.missed hgone
    · exact h.missed i t ht hgone
  · rw [called_other (hrest slot' i hmem).2] at ht
    exact h.awaits slot' i t (hrest slot' i hmem).1 ht hlive
  · rcases called_cases ht with ⟨-, rfl⟩ | ⟨hne, ht⟩
    · exact hnow
    · exact h.settled i t (hother i hi hne) ht

/-- The call of an object that is not there. -/
theorem tracking_skip (h : Tracking s) (hcalls : s.calls = (slot, o) :: calls) (hnone : s.objects[o]? = none) :
    Tracking { s with calls } := by
  obtain ⟨honce, hrest, hother⟩ := h.rest hcalls
  have hne {i : Nat} {t : Tracked} (ht : s.objects[i]? = some t) : i ≠ o := fun heq => by
    rw [heq] at ht
    exact absurd (hnone.symm.trans ht) (by simp)
  exact ⟨h.numbered, h.named, h.made, h.live, h.there, h.gone, honce, h.missed,
    fun slot' i t hmem => h.awaits slot' i t (hrest slot' i hmem).1,
    fun i t hi ht => h.settled i t (hother i hi (hne ht)) ht, h.signals⟩

/-- A call that disconnects nothing. -/
theorem tracking_quiet {emitted : List (Nat × Signal)} (h : Tracking s) (htracked : s.objects[o]? = some tracked)
    (hobjects : Objects s.model calls (s.objects.set o { tracked with details }))
    (hsame : details.m_disconnected = tracked.details.m_disconnected)
    (hemitted : ∀ i, emitted.count (i, .disconnected) = s.emitted.count (i, .disconnected)) :
    Tracking { s with calls, objects := s.objects.set o { tracked with details }, emitted } := by
  have hdisc (i : Nat) : ((s.objects.set o { tracked with details })[i]?.any
      fun tracked => tracked.details.m_disconnected) = s.isDisconnected i := by
    unfold System.isDisconnected
    by_cases hi : i = o
    · subst hi
      simp [called_self htracked, htracked, hsame]
    · rw [called_other hi]
  refine ⟨h.numbered, hobjects.named, hobjects.made, fun i t ht => ?_, fun k i hk => ?_, fun i => ?_,
    hobjects.once, hobjects.missed, hobjects.awaits, hobjects.settled, fun i => ?_⟩
  · rcases called_cases ht with ⟨rfl, rfl⟩ | ⟨-, ht⟩
    · simp only [hsame]
      exact h.live i tracked htracked
    · exact h.live i t ht
  · obtain ⟨t, ht, rfl⟩ := h.there k i hk
    by_cases hi : i = o
    · subst hi
      refine ⟨_, called_self htracked _, ?_⟩
      rw [htracked] at ht
      cases ht
      rfl
    · exact ⟨t, (called_other hi).trans ht, rfl⟩
  · rw [System.isDisconnected, hdisc]
    exact h.gone i
  · rw [System.isDisconnected, hdisc, hemitted]
    exact h.signals i

/-- A call that disconnects its object, which leaves the hash. -/
theorem tracking_disconnect (h : Tracking s) (htracked : s.objects[o]? = some tracked)
    (hobjects : Objects s.model calls (s.objects.set o { tracked with details }))
    (hlive : tracked.details.m_disconnected = false) (hgone : details.m_disconnected = true) :
    Tracking ({ s with
      calls
      objects := s.objects.set o { tracked with details }
      emitted := s.emitted ++ [(o, Signal.disconnected)] }.onDisconnected tracked.node_id o) := by
  have hentry := (h.live o tracked htracked).1 hlive
  have hself := called_self htracked { tracked with details }
  unfold System.onDisconnected
  refine ⟨h.numbered, hobjects.named, hobjects.made, fun i t ht => ?_, fun k i hk => ?_, fun i => ?_,
    hobjects.once, hobjects.missed, hobjects.awaits, hobjects.settled, fun i => ?_⟩
  · dsimp only
    rcases called_cases ht with ⟨rfl, rfl⟩ | ⟨hne, ht⟩
    · simp [hgone, hentry]
    · rw [h.live i t ht]
      split
      · rename_i hk
        simp [hk.1, hentry, Ne.symm hne]
      · exact Iff.rfl
  · dsimp only at hk ⊢
    split at hk
    · cases hk
    · rename_i hk'
      obtain ⟨t, ht, rfl⟩ := h.there k i hk
      have hne : i ≠ o := fun heq => by
        rw [heq, htracked] at ht
        cases ht
        exact hk' ⟨rfl, hentry⟩
      exact ⟨t, (called_other hne).trans ht, rfl⟩
  · have hgone_iff := h.gone i
    simp only [System.isDisconnected] at hgone_iff ⊢
    by_cases hi : i = o
    · subst hi
      simp [hself, hgone]
    · rw [called_other hi, ← hgone_iff]
      simp [hi]
  · have hcount := h.signals i
    simp only [System.isDisconnected, List.count_append] at hcount ⊢
    by_cases hi : i = o
    · subst hi
      simp [hself, hgone, hcount, htracked, hlive]
    · rw [called_other hi, hcount]
      simp [Ne.symm hi]

theorem tracking_callSlot (h : Tracking s) (hcalls : s.calls = (slot, o) :: calls) :
    Tracking ({ s with calls }.callSlot slot o) := by
  unfold System.callSlot
  split
  case h_1 hnone => exact tracking_skip h hcalls hnone
  case h_2 tracked htracked =>
    have htracked : s.objects[o]? = some tracked := htracked
    have hkept := kept_call s.model tracked.details slot
    have hsignal := disconnected_call s.model tracked.details slot
    have hobjects := objects_called h hcalls htracked
    generalize tracked.details.call s.model slot = done at hkept hsignal hobjects
    simp only
    split
    · rename_i hdone
      obtain ⟨hlive, hgone⟩ := hsignal.1 hdone
      rw [hdone]
      exact tracking_disconnect h htracked hobjects hlive hgone
    · rename_i hdone
      have hsame : done.1.m_disconnected = tracked.details.m_disconnected := by
        cases hold : tracked.details.m_disconnected with
        | true => exact hkept.disconnected hold
        | false =>
          by_contra hnew
          exact hdone (hsignal.2 ⟨hold, by simpa using hnew⟩)
      refine tracking_quiet h htracked hobjects hsame fun i => ?_
      have hzero : ((done.2.map (o, ·)).toList).count (i, Signal.disconnected) = 0 := by
        rw [List.count_eq_zero]
        intro hmem
        simp only [Option.mem_toList, Option.map_eq_some_iff, Prod.mk.injEq] at hmem
        obtain ⟨signal, hsome, -, rfl⟩ := hmem
        exact hdone hsome
      rw [List.count_append, hzero, Nat.add_zero]

end Call

/-! ## Steps -/

theorem tracking_deferredDelete (h : Tracking s) : Tracking (s.step .deferredDelete) :=
  ⟨h.numbered, h.named, h.made, h.live, h.there, fun o => by
    rw [← (show s.isDisconnected o = (s.step .deferredDelete).isDisconnected o from rfl), ← h.gone o]
    simp [System.step, or_comm], h.once, h.missed, h.awaits, h.settled, h.signals⟩

theorem tracking_flags (h : Tracking s) (ready stopping requested active : Bool) :
    Tracking { s with model := ⟨s.model.m_peers_data, s.model.freed, ready, stopping, requested, active⟩ } :=
  ⟨h.numbered, h.named, h.made, h.live, h.there, h.gone, h.once, h.missed,
    fun slot o t hmem ht hlive => by
      have hawaits := h.awaits slot o t hmem ht hlive
      cases slot with
      | onModelReset => exact hawaits
      | onModelDataChanged =>
        obtain ⟨row, hfollows⟩ := hawaits
        exact ⟨row, hfollows.m_row, hfollows.listed, hfollows.since⟩,
    fun o t hi ht => @Settled.congr s.model _ _ rfl rfl (h.settled o t hi ht), h.signals⟩

theorem existing_eq (h : Tracking s) (node_id : Int) : s.existing node_id = s.m_detail_models node_id := by
  unfold System.existing
  cases hentry : s.m_detail_models node_id with
  | none => rfl
  | some o =>
    obtain ⟨t, ht, rfl⟩ := h.there _ o hentry
    have hlive := (h.live o t ht).2 hentry
    have hdeleted : o ∉ s.deleted := fun hmem => by
      have hgone := (h.gone o).1 (.inr hmem)
      simp [System.isDisconnected, ht, hlive] at hgone
    simp [hdeleted]

/-! ## Details that are made -/

section Make

variable {made : Tracked}

theorem made_cases {objects : List Tracked} {t : Tracked} {i : Nat} (ht : (objects ++ [made])[i]? = some t) :
    i = objects.length ∧ t = made ∨ objects[i]? = some t := by
  rw [List.getElem?_append] at ht
  split at ht
  · exact .inr ht
  · obtain ⟨hlt, heq⟩ := List.getElem?_eq_some_iff.1 ht
    have hi : i = objects.length := by
      rw [List.length_singleton] at hlt
      omega
    subst hi
    simp only [Nat.sub_self, List.getElem_cons_zero] at heq
    exact .inl ⟨rfl, heq.symm⟩

theorem made_old {objects : List Tracked} {t : Tracked} {i : Nat} (ht : objects[i]? = some t) :
    (objects ++ [made])[i]? = some t ∧ i ≠ objects.length := by
  have hlt := (List.getElem?_eq_some_iff.1 ht).1
  exact ⟨by rw [List.getElem?_append_left hlt, ht], by omega⟩

theorem objects_made {row : Nat} (h : Tracking s) (hnamed : Named made)
    (hmade : made.details.made = s.model.freed.length)
    (hlive : made.details.m_disconnected = false) (hfollows : Follows s.model made row)
    (hpointer : made.details.m_combinedStats = s.model.pointer row) :
    Objects s.model s.calls (s.objects ++ [made]) := by
  refine ⟨fun i t ht => ?_, fun i t ht => ?_, h.once, fun i t ht hgone => ?_, fun slot i t hcall ht hlive' => ?_,
    fun i t hi ht => ?_⟩
  · rcases made_cases ht with ⟨-, rfl⟩ | ht
    · exact hnamed
    · exact h.named i t ht
  · rcases made_cases ht with ⟨-, rfl⟩ | ht
    · exact Nat.le_of_eq hmade
    · exact h.made i t ht
  · rcases made_cases ht with ⟨-, rfl⟩ | ht
    · rw [hlive] at hgone
      cases hgone
    · exact h.missed i t ht hgone
  · rcases made_cases ht with ⟨rfl, rfl⟩ | ht
    · cases slot with
      | onModelDataChanged => exact ⟨row, hfollows⟩
      | onModelReset => exact fun peers hmem => hfollows.since peers (List.mem_of_mem_tail hmem)
    · exact h.awaits slot i t hcall ht hlive'
  · rcases made_cases ht with ⟨-, rfl⟩ | ht
    · refine ⟨fun _ => ⟨row, hfollows, hpointer⟩, fun hgone => ?_⟩
      rw [hlive] at hgone
      cases hgone
    · exact h.settled i t hi ht

/-- Details of a peer that the hash has none of. -/
theorem tracking_make (h : Tracking s) (hnone : s.m_detail_models made.node_id = none)
    (hlive : made.details.m_disconnected = false) (hobjects : Objects s.model s.calls (s.objects ++ [made])) :
    Tracking { s with
      objects := s.objects ++ [made]
      m_detail_models := fun k => if k = made.node_id then some s.objects.length else s.m_detail_models k } := by
  have hdisc (i : Nat) : ((s.objects ++ [made])[i]?.any fun tracked => tracked.details.m_disconnected) =
      s.isDisconnected i := by
    unfold System.isDisconnected
    rw [List.getElem?_append]
    split
    · rfl
    · rw [List.getElem?_eq_none (l := s.objects) (by omega)]
      cases i - s.objects.length <;> simp [hlive]
  refine ⟨h.numbered, hobjects.named, hobjects.made, fun i t ht => ?_, fun k i hk => ?_, fun i => ?_,
    hobjects.once, hobjects.missed, hobjects.awaits, hobjects.settled, fun i => ?_⟩
  · rcases made_cases ht with ⟨rfl, rfl⟩ | ht
    · simp [hlive]
    · have hne : i ≠ s.objects.length := (@made_old made _ _ _ ht).2
      rw [h.live i t ht]
      by_cases hid : t.node_id = made.node_id
      · simp [hid, hnone, Ne.symm hne]
      · simp [hid]
  · dsimp only at hk
    split at hk
    · rename_i hid
      cases hk
      exact ⟨made, by simp, hid.symm⟩
    · obtain ⟨t, ht, hid⟩ := h.there k i hk
      exact ⟨t, (made_old ht).1, hid⟩
  · rw [System.isDisconnected, hdisc]
    exact h.gone i
  · rw [System.isDisconnected, hdisc]
    exact h.signals i

theorem tracking_peerDetailsAt (h : Tracking s) (source_row : Nat) : Tracking (s.peerDetailsAt source_row).1 := by
  unfold System.peerDetailsAt
  simp only [existing_eq h]
  split
  · exact h
  rename_i hnone
  split
  · exact h
  rename_i rec hrec
  rw [hrec, Option.map_some, Option.getD_some] at hnone
  rw [hrec, Option.map_some, Option.getD_some]
  have hmem : rec ∈ s.model.m_peers_data := List.mem_of_getElem? hrec
  have hint := h.numbered.toInt_eq hmem
  obtain ⟨hlow, hhigh⟩ := h.numbered.int rec hmem
  have hrow : (PeerDetailsModel.new s.model rec (s.model.pointer source_row)).m_row = source_row := by
    rw [PeerDetailsModel.new, rowOf_row h.numbered hrec]
    rfl
  have hnamed : Named ⟨rec.nodeStats.nodeid, PeerDetailsModel.new s.model rec (s.model.pointer source_row)⟩ :=
    ⟨hlow, hhigh, hint⟩
  have hfollows : Follows s.model
      ⟨rec.nodeStats.nodeid, PeerDetailsModel.new s.model rec (s.model.pointer source_row)⟩ source_row := by
    refine ⟨hrow, ⟨rec, hrec, rfl⟩, fun peers hpeers => ?_⟩
    -- no list was replaced since
    simp only [since, PeerDetailsModel.new, Nat.add_sub_cancel_left, List.take_succ_cons, List.take_zero,
      List.mem_singleton] at hpeers
    exact hpeers ▸ ⟨rec, hmem, rfl⟩
  exact tracking_make h hnone rfl (objects_made h hnamed rfl rfl hfollows rfl)

end Make

/-! ## Runs -/

theorem tracking_step (h : Tracking s) (e : Event) (he : s.Allowed e) : Tracking (s.step e) := by
  cases e with
  | startAutoRefresh =>
    show Tracking { s with model := s.model.startAutoRefresh }
    unfold PeerListModel.startAutoRefresh
    split
    · exact h
    · exact tracking_flags h _ _ _ _
  | stopAutoRefresh => exact tracking_flags h _ _ _ _
  | beginShutdown => exact tracking_flags h _ _ _ _
  | backendInitialized nodes_stats =>
    exact tracking_replaced h he.1 he.2 (replaced_backendInitialized s.model nodes_stats)
  | refresh nodes_stats => exact tracking_replaced h he.1 he.2 (replaced_refresh s.model nodes_stats)
  | slot =>
    unfold System.step
    cases hcalls : s.calls with
    | nil => exact h
    | cons call calls => exact tracking_callSlot h hcalls
  | peerDetailsAt source_row => exact tracking_peerDetailsAt h source_row
  | deferredDelete => exact tracking_deferredDelete h

theorem tracking_start {backend_ready : Bool} {nodes_stats : Option (List CNodeCombinedStats)}
    (hnumbered : ∀ peers, nodes_stats = some peers → Numbered peers) :
    Tracking (System.start backend_ready nodes_stats) := by
  have hpeers : Numbered (System.start backend_ready nodes_stats).model.m_peers_data := by
    have h := replaced_refresh ({ m_backend_ready := backend_ready } : PeerListModel) nodes_stats
    rcases h with ⟨hpeers, -, -⟩ | ⟨hsome, -, -⟩
    · show Numbered (PeerListModel.refresh _ _).1.m_peers_data
      rw [hpeers]
      exact ⟨.nil, fun _ hmem => by simp at hmem⟩
    · exact hnumbered _ hsome
  refine ⟨hpeers, ?_, ?_, ?_, ?_, ?_, ?_, ?_, ?_, ?_, ?_⟩ <;> simp [System.start, System.isDisconnected]

theorem tracking_reaches {backend_ready : Bool} {nodes_stats : Option (List CNodeCombinedStats)}
    (hnumbered : ∀ peers, nodes_stats = some peers → Numbered peers)
    (h : Reach.Reaches System.step System.Allowed (System.start backend_ready nodes_stats) s) : Tracking s :=
  h.invariant (tracking_start hnumbered) fun _ e h he => tracking_step h e he

/-- Between two signals of the list model, an object is live as long as every list since it was made has its peer.
It is disconnected once, and no two live objects share a peer. -/
theorem details_run {backend_ready : Bool} {nodes_stats : Option (List CNodeCombinedStats)}
    (hnumbered : ∀ peers, nodes_stats = some peers → Numbered peers)
    (h : Reach.Reaches System.step System.Allowed (System.start backend_ready nodes_stats) s) :
    (∀ (o : Nat) (t : Tracked), s.objects[o]? = some t → s.calls = [] →
      (t.details.m_disconnected = false ↔ ∀ peers ∈ since s.model t.details.made, Listed t.node_id peers) ∧
      (t.details.m_disconnected = false → ∃ rec, s.model.deref t.details.m_combinedStats = some rec ∧
        rec ∈ s.model.m_peers_data ∧ rec.nodeStats.nodeid = t.node_id)) ∧
    (∀ o, s.emitted.count (o, .disconnected) = (s.isDisconnected o).toNat) ∧
    ∀ (o o' : Nat) (t t' : Tracked), s.objects[o]? = some t → s.objects[o']? = some t' →
      t.details.m_disconnected = false → t'.details.m_disconnected = false → t.node_id = t'.node_id → o = o' := by
  have htracking := tracking_reaches hnumbered h
  refine ⟨fun o t ht hidle => ?_, htracking.signals, fun o o' t t' ht ht' hlive hlive' hid => ?_⟩
  · have hsettled := htracking.settled o t (by simp [hidle]) ht
    refine ⟨⟨fun hlive => ?_, fun hall => ?_⟩, fun hlive => ?_⟩
    · obtain ⟨row, hfollows, -⟩ := hsettled.follows hlive
      exact hfollows.since
    · by_contra hgone
      obtain ⟨peers, hpeers, hnot⟩ := hsettled.missed (by simpa using hgone)
      exact hnot (hall peers hpeers)
    · obtain ⟨row, hfollows, hpointer⟩ := hsettled.follows hlive
      obtain ⟨rec, hrec, hid⟩ := hfollows.listed
      exact ⟨rec, by rw [hpointer, deref_pointer, hrec], List.mem_of_getElem? hrec, hid⟩
  · have hentry := (htracking.live o t ht).1 hlive
    have hentry' := (htracking.live o' t' ht').1 hlive'
    rw [hid, hentry'] at hentry
    exact (Option.some.inj hentry).symm

def peer1 : CNodeCombinedStats := ⟨⟨1, "127.0.0.1"⟩, true⟩

def peer2 : CNodeCombinedStats := ⟨⟨2, "10.0.0.2"⟩, true⟩

theorem numbered_of_two {peers : List CNodeCombinedStats} (hsub : ∀ rec ∈ peers, rec = peer1 ∨ rec = peer2)
    (hkeyed : (peers.map fun rec : CNodeCombinedStats => rec.nodeStats.nodeid).Nodup) :
    ∀ peers', some peers = some peers' → Numbered peers' := by
  rintro _ ⟨⟩
  refine ⟨hkeyed, fun rec hrec => ?_⟩
  rcases hsub rec hrec with rfl | rfl <;> decide

/-- The details of both peers are made, and the list comes in another order. -/
def reordered : List Event :=
  [.peerDetailsAt 0, .peerDetailsAt 1, .refresh (some [peer2, peer1]), .slot, .slot]

theorem reaches_reordered : Reach.Reaches System.step System.Allowed (System.start true (some [peer1, peer2]))
    (reordered.foldl System.step (System.start true (some [peer1, peer2]))) :=
  Reach.Reaches.play .refl
    ⟨trivial, trivial, ⟨rfl, numbered_of_two (by decide) (by decide)⟩, trivial, trivial, trivial⟩

/-- One of the two peers goes after they have changed places. -/
theorem details_run_reordered :
    let s := [Event.refresh (some [peer2]), .slot, .slot].foldl System.step
      (reordered.foldl System.step (System.start true (some [peer1, peer2])))
    s.emitted.count (0, .disconnected) = 1 ∧ s.emitted.count (1, .disconnected) = 0 ∧
      ∃ t, s.objects[1]? = some t ∧ s.model.deref t.details.m_combinedStats = some peer2 := by
  intro s
  have hs : Reach.Reaches System.step System.Allowed (System.start true (some [peer1, peer2])) s :=
    reaches_reordered.play ⟨⟨rfl, numbered_of_two (by decide) (by decide)⟩, trivial, trivial, trivial⟩
  obtain ⟨hshown, hcount, -⟩ := details_run (numbered_of_two (by decide) (by decide)) hs
  refine ⟨(hcount 0).trans (by decide), (hcount 1).trans (by decide), _, rfl, ?_⟩
  obtain ⟨rec, hrec, hlisted, -⟩ := (hshown 1 _ rfl rfl).2 rfl
  rw [hrec, List.mem_singleton.1 hlisted]

theorem peerDetailsAt_entry (h : Tracking s) {row : Nat} {rec : CNodeCombinedStats}
    (hrec : s.model.m_peers_data[row]? = some rec) :
    ∃ o, (s.peerDetailsAt row).2 = some o ∧ (s.peerDetailsAt row).1.m_detail_models rec.nodeStats.nodeid = some o := by
  unfold System.peerDetailsAt
  rw [hrec]
  simp only [Option.map_some, Option.getD_some, existing_eq h]
  split
  · rename_i o hentry
    exact ⟨o, rfl, hentry⟩
  · exact ⟨s.objects.length, rfl, by simp⟩

theorem peerDetailsAt_frame (s : System) (row : Nat) :
    (s.peerDetailsAt row).1.model = s.model ∧ (s.peerDetailsAt row).1.calls = s.calls := by
  unfold System.peerDetailsAt
  simp only
  split
  · exact ⟨rfl, rfl⟩
  · split <;> exact ⟨rfl, rfl⟩

/-- Details that are asked for show the peer of the row that they are asked for at. -/
theorem peerDetailsAt_shows {backend_ready : Bool} {nodes_stats : Option (List CNodeCombinedStats)}
    (hnumbered : ∀ peers, nodes_stats = some peers → Numbered peers)
    (h : Reach.Reaches System.step System.Allowed (System.start backend_ready nodes_stats) s) (hidle : s.calls = [])
    {row : Nat} {rec : CNodeCombinedStats} (hrec : s.model.m_peers_data[row]? = some rec) :
    ∃ o t, (s.peerDetailsAt row).2 = some o ∧ (s.peerDetailsAt row).1.objects[o]? = some t ∧
      t.details.m_disconnected = false ∧ t.details.m_row = row ∧
      s.model.deref t.details.m_combinedStats = some rec := by
  have hbefore := tracking_reaches hnumbered h
  have hafter := tracking_peerDetailsAt hbefore row
  obtain ⟨hmodel, hcalls⟩ := peerDetailsAt_frame s row
  obtain ⟨o, ho, hentry⟩ := peerDetailsAt_entry hbefore hrec
  obtain ⟨t, ht, hid⟩ := hafter.there _ o hentry
  have hlive := (hafter.live o t ht).2 (by rw [hid, hentry])
  obtain ⟨row', hfollows, hpointer⟩ := (hafter.settled o t (by simp [hcalls, hidle]) ht).follows hlive
  obtain ⟨rec', hrec', hid'⟩ := hfollows.listed
  rw [hmodel] at hrec' hpointer
  have hsame : row' = row := hbefore.numbered.row_inj hrec' hrec (hid'.trans hid)
  subst hsame
  exact ⟨o, t, ho, ht, hlive, hfollows.m_row, by rw [hpointer, deref_pointer, hrec]⟩

theorem peerDetailsAt_shows_reordered :
    let s := reordered.foldl System.step (System.start true (some [peer1, peer2]))
    ∃ t, (s.peerDetailsAt 1).2 = some 0 ∧ (s.peerDetailsAt 1).1.objects[0]? = some t ∧
      t.details.m_disconnected = false ∧ t.details.m_row = 1 ∧
      s.model.deref t.details.m_combinedStats = some peer1 := by
  intro s
  obtain ⟨o, t, ho, ht, hlive, hrow, hrec⟩ := peerDetailsAt_shows (numbered_of_two (by decide) (by decide))
    reaches_reordered rfl (show s.model.m_peers_data[1]? = some peer1 from rfl)
  obtain rfl : 0 = o := Option.some.inj ho
  exact ⟨t, ho, ht, hlive, hrow, hrec⟩

end GuiQml.Peers
