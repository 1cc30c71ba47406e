import GuiQml.Activity.Accounted
import GuiQml.Activity.Proxy
import GuiQml.Lib.Comparator
import GuiQml.Lib.Groups
import GuiQml.Lib.Reach
import Mathlib.Data.Nat.Cast.Order.Ring

/-!
# What the activity list shows

The rows of the proxy over whole runs: which they are, in which order, under which headings, and that the page
shows their data as they are.
-/

namespace GuiQml.ActivityList

open Activity.Rows (IdRole IsPendingRequestRole Row)
open Comparator
open GuiQml.Rows
open Rebuild
open Std (OrientedCmp TransCmp)

variable {Date : Type} {qt : Qt Date} {m : Proxy Date} {group : GroupBy}

/-! ## The order -/

def compareRows : Row Variant → Row Variant → Ordering :=
  compareLex (compareOn pending) (compareLex (compareOn timestamp) (compareOn variants.id))

instance : TransCmp compareRows := inferInstanceAs (TransCmp (compareLex _ (compareLex _ _)))

theorem lessThan_follows : Follows compareRows lessThan := by
  intro a b
  rw [compareRows, compareLex, Ordering.then_eq_lt, compareLex, Ordering.then_eq_lt]
  simp only [compareOn, compare_lt_iff_lt, compare_eq_iff_eq]
  unfold lessThan
  by_cases hpending : pending a = pending b
  · by_cases htimestamp : timestamp a = timestamp b
    · simp [hpending, htimestamp]
    · simp [hpending, htimestamp]
  · simp only [ne_eq, hpending, not_false_eq_true, if_true, Bool.lt_iff]
    cases ha : pending a <;> cases hb : pending b <;> simp_all

/-- The proxy sorts descending. -/
def shownBefore (a b : Row Variant) : Bool := lessThan b a

theorem strict_of_sorted {rows : List (Row Variant)} (hids : rows.Pairwise fun a b => variants.id a ≠ variants.id b)
    (hsorted : rows.Pairwise fun a b => lessThan a b = false) : rows.Pairwise fun a b => shownBefore a b = true := by
  refine (hids.and hsorted).imp fun {a b} hab => ?_
  obtain ⟨hne, hnot⟩ := hab
  have hlt : compareRows a b ≠ .lt := fun hlt => by simp [(lessThan_follows a b).2 hlt] at hnot
  have heq : compareRows a b ≠ .eq := fun heq => by
    simp only [compareRows, compareLex_eq_eq, compareOn, compare_eq_iff_eq] at heq
    exact hne heq.2.2
  have hswap : compareRows b a = (compareRows a b).swap := OrientedCmp.eq_swap
  refine (lessThan_follows b a).2 ?_
  rw [hswap]
  cases hcmp : compareRows a b <;> simp_all

/-! ## The headings -/

/-- The times of the rows that stand under a date. -/
def datedTimes (rows : List (Row Variant)) : List Int := (rows.filter fun row => !pending row).map timestamp

/-- What the headings rest on, of these times: later ones are written later, a heading names what its key names, and
none is written as the heading of what is pending. -/
structure Dates (qt : Qt Date) (group : GroupBy) (times : List Int) : Prop where
  later : ∀ s ∈ times, ∀ t ∈ times, s ≤ t → qt.toString s (keyFormat group) ≤ qt.toString t (keyFormat group)
  names : ∀ s ∈ times, ∀ t ∈ times, qt.localeString s (labelFormat group) = qt.localeString t (labelFormat group) ↔
    qt.toString s (keyFormat group) = qt.toString t (keyFormat group)
  dated : ∀ t ∈ times, qt.localeString t (labelFormat group) ≠ "Pending"

def heading (qt : Qt Date) (group : GroupBy) (row : Row Variant) : String :=
  sectionLabel qt group (pending row) (timestamp row)

/-- What decides the heading of a row that is not pending. -/
def dateKey (qt : Qt Date) (group : GroupBy) (row : Row Variant) : String :=
  if pending row then "" else qt.toString (timestamp row) (keyFormat group)

/-- The order of the headings, the last date first. -/
def compareHeadings (qt : Qt Date) (group : GroupBy) (a b : Row Variant) : Ordering :=
  compareLex (compareOn pending) (compareOn (dateKey qt group)) b a

instance : TransCmp (compareHeadings qt group) :=
  inferInstanceAs (TransCmp fun a b => compareLex (compareOn pending) (compareOn (dateKey qt group)) b a)

theorem timestamp_mem {rows : List (Row Variant)} {row : Row Variant} (hrow : row ∈ rows)
    (hpending : pending row = false) :
    timestamp row ∈ datedTimes rows :=
  List.mem_map_of_mem (List.mem_filter.2 ⟨hrow, by simp [hpending]⟩)

variable {rows : List (Row Variant)} {a b : Row Variant}

theorem heading_iff (hdates : Dates qt group (datedTimes rows)) (hmema : a ∈ rows) (hmemb : b ∈ rows) :
    heading qt group a = heading qt group b ↔ compareHeadings qt group a b = .eq := by
  simp only [compareHeadings, compareLex_eq_eq, compareOn, compare_eq_iff_eq]
  unfold heading sectionLabel dateKey
  cases ha : pending a <;> cases hb : pending b
  · simp [hdates.names _ (timestamp_mem hmema ha) _ (timestamp_mem hmemb hb), eq_comm]
  · simpa using hdates.dated _ (timestamp_mem hmema ha)
  · simpa using fun h => hdates.dated _ (timestamp_mem hmemb hb) h.symm
  · simp

theorem headings_sorted (hdates : Dates qt group (datedTimes rows)) (hmema : a ∈ rows) (hmemb : b ∈ rows)
    (h : shownBefore a b = true) :
    (compareHeadings qt group a b).isLE = true := by
  unfold shownBefore lessThan at h
  unfold compareHeadings compareLex compareOn dateKey
  cases ha : pending a <;> cases hb : pending b
  · -- of two that are not pending, the later one is shown first
    have hle : timestamp b ≤ timestamp a := by
      by_cases heq : timestamp b = timestamp a
      · exact heq.le
      · simp only [ha, hb, heq] at h
        simp at h
        omega
    have hkeys := hdates.later _ (timestamp_mem hmemb hb) _ (timestamp_mem hmema ha) hle
    have hcompare : (compare false false).then (compare (qt.toString (timestamp b) (keyFormat group))
        (qt.toString (timestamp a) (keyFormat group))) =
        compare (qt.toString (timestamp b) (keyFormat group)) (qt.toString (timestamp a) (keyFormat group)) := rfl
    simp only [Bool.false_eq_true, if_false]
    rw [hcompare]
    rcases lt_or_eq_of_le hkeys with hlt | heq
    · rw [compare_lt_iff_lt.2 hlt]
      rfl
    · rw [compare_eq_iff_eq.2 heq]
      rfl
  · simp [ha, hb] at h
  · rfl
  · rfl

theorem headings_together (hdates : Dates qt group (datedTimes rows))
    (hsorted : rows.Pairwise fun a b => shownBefore a b = true) : Groups.Together (heading qt group) rows :=
  Groups.together_of_sorted (fun _ ha _ hb => heading_iff hdates ha hb)
    (hsorted.imp_of_mem fun ha hb h => headings_sorted hdates ha hb h)

/-! ## What a notice leaves -/

namespace Proxy

/-- What no notice of the proxy touches. -/
structure Same (m m' : Proxy Date) : Prop where
  source : m'.source = m.source
  filters : m'.filters = m.filters
  group : m'.m_group_by = m.m_group_by
  unit : m'.m_display_unit = m.m_display_unit
  available : m'.m_available_max_amount = m.m_available_max_amount
  today : m'.today = m.today
  days : m'.days = m.days

theorem Same.refl (m : Proxy Date) : Same m m := ⟨rfl, rfl, rfl, rfl, rfl, rfl, rfl⟩

theorem Same.trans {m' m'' : Proxy Date} (h : Same m m') (h' : Same m' m'') : Same m m'' where
  source := h'.source.trans h.source
  filters := h'.filters.trans h.filters
  group := h'.group.trans h.group
  unit := h'.unit.trans h.unit
  available := h'.available.trans h.available
  today := h'.today.trans h.today
  days := h'.days.trans h.days

/-- Only what the page shows and the kept balance may change. -/
structure Reads (m m' : Proxy Date) : Prop where
  same : Same m m'
  rows : m'.rows = m.rows
  view : m'.view = m.view

theorem reads_pendingBalanceSat : Reads m m.pendingBalanceSat.2 := by
  unfold pendingBalanceSat
  split <;> exact ⟨⟨rfl, rfl, rfl, rfl, rfl, rfl, rfl⟩, rfl, rfl⟩

theorem reads_pendingBalanceChanged : Reads m m.pendingBalanceChanged := by
  have h := @reads_pendingBalanceSat Date m
  exact ⟨⟨h.same.source, h.same.filters, h.same.group, h.same.unit, h.same.available, h.same.today, h.same.days⟩,
    h.rows, h.view⟩

theorem reads_invalidatePendingBalance : Reads m m.invalidatePendingBalance := by
  have h := @reads_pendingBalanceChanged Date { m with m_pending_balance := none }
  exact ⟨⟨h.same.source, h.same.filters, h.same.group, h.same.unit, h.same.available, h.same.today, h.same.days⟩,
    h.rows, h.view⟩

theorem reads_countChanged : Reads m m.countChanged := by
  have h := @reads_invalidatePendingBalance Date { m with shown_counts := (m.rows.length, requestCount m.rows) }
  exact ⟨⟨h.same.source, h.same.filters, h.same.group, h.same.unit, h.same.available, h.same.today, h.same.days⟩,
    h.rows, h.view⟩

variable {n : Notice (Row Variant) Int} {r : Relay} {rows' : List (Row Variant)}

theorem hear_reads : Reads
    { m with rows := n.after, view := (View.ofData (data qt m.m_group_by)).apply m.view n } (m.hear qt n) := by
  unfold hear
  split
  · split
    · exact reads_invalidatePendingBalance
    · exact ⟨Same.refl _, rfl, rfl⟩
  · exact reads_countChanged

theorem hear_same : Same m (m.hear qt n) := by
  have h := (@hear_reads Date qt m n).same
  exact ⟨h.source, h.filters, h.group, h.unit, h.available, h.today, h.days⟩

theorem foldl_hear_same (notices : List (Notice (Row Variant) Int)) : Same m (notices.foldl (·.hear qt) m) := by
  induction notices generalizing m with
  | nil => exact Same.refl m
  | cons n notices ih => exact hear_same.trans ih

theorem relay_same : Same m (m.relay qt r) := by
  have h := @foldl_hear_same Date qt { m with rows := r.rows } r.notices
  exact ⟨h.source, h.filters, h.group, h.unit, h.available, h.today, h.days⟩

theorem foldl_hear_rows {notices : List (Notice (Row Variant) Int)} (h : Chain m.rows notices rows') :
    (notices.foldl (·.hear qt) m).rows = rows' := by
  induction notices generalizing m with
  | nil => exact h.symm
  | cons n notices ih =>
    apply ih
    rw [hear_reads.rows]
    exact h.2.2

theorem relay_rows (h : Chain r.rows r.notices rows') : (m.relay qt r).rows = rows' := foldl_hear_rows h

theorem foldl_hear_view (notices : List (Notice (Row Variant) Int)) :
    (notices.foldl (·.hear qt) m).view = (View.ofData (data qt m.m_group_by)).replay m.view notices := by
  induction notices generalizing m with
  | nil => rfl
  | cons n notices ih =>
    rw [List.foldl_cons, ih, hear_reads.view, hear_same.group]
    rfl

theorem relay_view : (m.relay qt r).view = (View.ofData (data qt m.m_group_by)).replay m.view r.notices :=
  foldl_hear_view r.notices

end Proxy

/-! ## What the page shows of a row -/

theorem data_of_not_mem {role : Int} (h : role ∉ sectionRoles) (row : Row Variant) :
    data qt group row role = variants.data row role := by
  unfold data
  rw [if_neg (by simpa using h)]

theorem data_of_mem {role : Int} (h : role ∈ sectionRoles) (row : Row Variant) :
    data qt group row role = sectionData qt group (pending row) (timestamp row) role := by
  unfold data
  rw [if_pos (by simpa using h)]

/-- The page shows what the activity says in all its roles. -/
def ShowsSource (rows : List (Row Variant)) (view : List (Int → Variant)) : Prop :=
  ∀ role ∉ sectionRoles, view.map (· role) = rows.map fun row => variants.data row role

/-- The proxy's own data go with the data that they are made of. -/
def Derived (qt : Qt Date) (group : GroupBy) (shown : Int → Variant) : Prop :=
  ∀ role ∈ sectionRoles, shown role =
    sectionData qt group (variants.toBool (shown IsPendingRole)) (toLongLong (shown TimestampRole)) role

theorem pendingRole_own : IsPendingRole ∉ sectionRoles := by decide

theorem timestampRole_own : TimestampRole ∉ sectionRoles := by decide

theorem derived_data (row : Row Variant) : Derived qt group (data qt group row) := by
  intro role hrole
  rw [data_of_mem hrole, data_of_not_mem pendingRole_own, data_of_not_mem timestampRole_own]
  rfl

theorem view_eq_of_derived {rows : List (Row Variant)} {view : List (Int → Variant)} (hsource : ShowsSource rows view)
    (hderived : ∀ shown ∈ view, Derived qt group shown) : view = rows.map (data qt group) := by
  have hlength : view.length = rows.length := by simpa using congrArg List.length (hsource _ pendingRole_own)
  refine List.ext_getElem (by simpa using hlength) fun i hi hi' => ?_
  have hrows : i < rows.length := hlength ▸ hi
  have hread : ∀ role ∉ sectionRoles, view[i] role = variants.data rows[i] role := by
    intro role hrole
    have h := congrArg (fun l => l[i]?) (hsource role hrole)
    simpa [hi, hrows] using h
  rw [List.getElem_map]
  funext role
  by_cases hrole : role ∈ sectionRoles
  · rw [hderived _ (List.getElem_mem hi) role hrole, hread _ pendingRole_own, hread _ timestampRole_own,
      data_of_mem hrole]
    rfl
  · rw [hread role hrole, data_of_not_mem hrole]

theorem showsSource_data (rows : List (Row Variant)) : ShowsSource rows (rows.map (data qt group)) := by
  intro role hrole
  simp [data_of_not_mem hrole]

theorem showsSource_replay {rows rows' : List (Row Variant)} {notices : List (Notice (Row Variant) Int)}
    {view : List (Int → Variant)} (hview : ShowsSource rows view)
    (htold : (View.ofData variants.data).replay (rows.map variants.data) notices = rows'.map variants.data) :
    ShowsSource rows' ((View.ofData (data qt group)).replay view notices) := by
  intro role hrole
  have hdata : View.ofRole (data qt group) role = View.ofRole variants.data role := by
    unfold View.ofRole
    simp only [data_of_not_mem hrole]
  have hold := congrArg (List.map (· role)) htold
  rw [View.map_role_replay, List.map_map] at hold
  rw [View.map_role_replay, hdata, hview role hrole]
  simpa [Function.comp_def] using hold

theorem derived_replay {notices : List (Notice (Row Variant) Int)} {view : List (Int → Variant)}
    (hnamed : ∀ n ∈ notices, ∀ first last roles, n.event = .changed first last roles →
      roles = [] ∨ IsPendingRole ∉ roles ∧ TimestampRole ∉ roles ∧ ∀ role ∈ roles, role ∉ sectionRoles)
    (h : ∀ shown ∈ view, Derived qt group shown) :
    ∀ shown ∈ (View.ofData (data qt group)).replay view notices, Derived qt group shown := by
  refine View.forall_replay derived_data (fun n hn first last roles hevent row shown hshown => ?_) h
  by_cases hempty : roles = []
  · -- everything is read again
    have hall : (View.ofData (data qt group)).reread roles row shown = data qt group row := by
      funext role
      simp [View.ofData, hempty]
    rw [hall]
    exact derived_data row
  · obtain ⟨hpending, htimestamp, hown⟩ := (hnamed n hn first last roles hevent).resolve_left hempty
    have hkeeps {role : Int} (hnot : role ∉ roles) : (View.ofData (data qt group)).reread roles row shown role =
        shown role := by
      simp [View.ofData, hempty, hnot]
    intro role hrole
    rw [hkeeps fun hmem => hown role hmem hrole, hkeeps hpending, hkeeps htimestamp]
    exact hshown role hrole

theorem sectionsChanged_rows : (m.sectionsChanged qt).rows = m.rows := by
  unfold Proxy.sectionsChanged
  split
  · rfl
  · exact Proxy.hear_reads.rows

theorem sectionsChanged_same : Proxy.Same m (m.sectionsChanged qt) := by
  unfold Proxy.sectionsChanged
  split
  · exact Proxy.Same.refl m
  · exact Proxy.hear_same

theorem sectionsChanged_view (h : ShowsSource m.rows m.view) :
    (m.sectionsChanged qt).view = m.rows.map (data qt m.m_group_by) := by
  have hlength : m.view.length = m.rows.length := by simpa using congrArg List.length (h _ pendingRole_own)
  unfold Proxy.sectionsChanged
  split
  · rename_i hempty
    simp only [List.isEmpty_iff] at hempty
    simp only [hempty, List.length_nil, List.length_eq_zero_iff, List.map_nil] at hlength ⊢
    exact hlength
  · rw [Proxy.hear_reads.view]
    refine List.ext_getElem (by simp [View.apply, hlength]) fun i hi hi' => ?_
    have hrows : i < m.rows.length := by simpa using hi'
    have hview : i < m.view.length := hlength ▸ hrows
    have hin : i ≤ m.rows.length - 1 := by omega
    have hitem : ∀ role ∉ sectionRoles, m.view[i] role = variants.data m.rows[i] role := by
      intro role hrole
      have hread := congrArg (fun l => l[i]?) (h role hrole)
      simpa [hview, hrows] using hread
    simp only [View.apply, List.getElem_mapIdx, List.getElem_map, Nat.zero_le, hin, true_and, if_true,
      List.getElem?_eq_getElem hrows, Option.map_some, Option.getD_some]
    funext role
    by_cases hrole : role ∈ sectionRoles
    · simp [View.ofData, hrole]
    · have hsome : sectionRoles ≠ [] := by decide
      simp only [View.ofData, hsome, hrole, or_self, if_false]
      rw [hitem role hrole, data_of_not_mem hrole]

/-! ## The rows of the activity -/

section Read

variable {texts : Texts} {history : List Request} {record : Record} {request' : Request}

theorem data_ofList_congr {entries entries' : List (Int × Variant)} (hnodup : (entries.map Prod.fst).Nodup)
    (hnodup' : (entries'.map Prod.fst).Nodup) {role : Int}
    (hsame : ∀ value, (role, value) ∈ entries ↔ (role, value) ∈ entries') :
    variants.data (.ofList entries) role = variants.data (.ofList entries') role := by
  unfold Activity.Rows.Variants.data
  rw [Std.ExtTreeMap.getD_eq_getD_getElem?, Std.ExtTreeMap.getD_eq_getD_getElem?]
  by_cases hthere : ∃ value, (role, value) ∈ entries
  · obtain ⟨value, hmem⟩ := hthere
    rw [getElem?_ofList hnodup hmem, getElem?_ofList hnodup' ((hsame value).1 hmem)]
  · have hnone {l : List (Int × Variant)} (h : ∀ value, (role, value) ∉ l) :
        (l.map Prod.fst).contains role = false := by
      simpa using h
    rw [not_exists] at hthere
    rw [Std.ExtTreeMap.getElem?_ofList_of_contains_eq_false (hnone hthere),
      Std.ExtTreeMap.getElem?_ofList_of_contains_eq_false (hnone fun value h => hthere value ((hsame value).2 h))]

theorem data_rowOf {role : Int} {value : Variant} (hmem : ∀ g, (role, value) ∈ transactionEntries texts record g) :
    variants.data (rowOf texts history record) role = value :=
  data_of_getElem? (getElem?_ofList (nodup_transactionEntries record _) (hmem _))

theorem data_requestRow {role : Int} {value : Variant} (hmem : (role, value) ∈ requestEntries texts request') :
    variants.data (requestRow texts request') role = value :=
  data_of_getElem? (getElem?_ofList (nodup_requestEntries request') hmem)

@[simp] theorem request_rowOf : request (rowOf texts history record) = false := isPendingRequest_rowOf record

@[simp] theorem pending_rowOf :
    pending (rowOf texts history record) = (record.status_known && !record.inactive && record.depth == 0) := by
  have h : variants.data (rowOf texts history record) IsPendingRole =
      .bool (record.status_known && !record.inactive && record.depth == 0) :=
    data_rowOf fun g => by simp [transactionEntries]
  unfold pending flag
  rw [h]
  rfl

@[simp] theorem timestamp_rowOf : timestamp (rowOf texts history record) = record.activity.timestamp := by
  have h : variants.data (rowOf texts history record) TimestampRole = .int record.activity.timestamp :=
    data_rowOf fun g => by simp [transactionEntries]
  unfold timestamp number
  rw [h]
  rfl

@[simp] theorem netAmount_rowOf : netAmount (rowOf texts history record) = record.activity.walletImpact := by
  have h : variants.data (rowOf texts history record) NetAmountSatRole = .int record.activity.walletImpact :=
    data_rowOf fun g => by simp [transactionEntries]
  unfold netAmount number
  rw [h]
  rfl

@[simp] theorem request_requestRow : request (requestRow texts request') = true := isPendingRequest_requestRow request'

@[simp] theorem pending_requestRow : pending (requestRow texts request') = true := by
  have h : variants.data (requestRow texts request') IsPendingRole = .bool true :=
    data_requestRow (by simp [requestEntries])
  unfold pending flag
  rw [h]
  rfl

@[simp] theorem timestamp_requestRow : timestamp (requestRow texts request') = texts.fromIso request'.dateIso := by
  have h : variants.data (requestRow texts request') TimestampRole = .int (texts.fromIso request'.dateIso) :=
    data_requestRow (by simp [requestEntries])
  unfold timestamp number
  rw [h]
  rfl

@[simp] theorem netAmount_requestRow : netAmount (requestRow texts request') = request'.amountSat := by
  have h : variants.data (requestRow texts request') NetAmountSatRole = .int request'.amountSat :=
    data_requestRow (by simp [requestEntries])
  unfold netAmount number
  rw [h]
  rfl

theorem isRow_rowOf : IsRow (rowOf texts history record) := by
  unfold IsRow
  simp [transactionId_ne]

theorem isRow_requestRow : IsRow (requestRow texts request') := by
  unfold IsRow
  simp

end Read

/-- Every rebuild of the activity leaves rows that a proxy can be put over. -/
theorem sourced_rebuilds {texts : Texts} {inputs : List Input} {input : Input} {m_rows : List (Row Variant)}
    (h : rebuilds texts (inputs ++ [input]) = some m_rows) : Sourced m_rows := by
  rw [rebuilds_concat, Option.some.injEq] at h
  subst h
  constructor
  · have hsorted := Activity.Rows.sorted_toList (byId_newRows texts input)
    exact List.pairwise_map.2 (hsorted.imp fun hlt => hlt.ne)
  · intro row hrow
    obtain ⟨key, hkey⟩ := mem_rows.1 hrow
    rcases (made_newRows texts input).sound key row hkey with ⟨record, -, -, rfl⟩ | ⟨request', -, -, rfl⟩
    · exact isRow_rowOf
    · exact isRow_requestRow

/-! ## What every event keeps -/

/-- The rows of the proxy are those of its source that passed the filter when they were last looked at. -/
structure Passed (qt : Qt Date) (m : Proxy Date) : Prop where
  sourced : Sourced m.source
  sorted : m.rows.Pairwise fun a b => lessThan a b = false
  nodup : m.rows.Nodup
  mem : ∀ row ∈ m.rows, row ∈ m.source
  filtered : ∀ row ∈ m.source, ∃ day ∈ m.days, (row ∈ m.rows ↔ m.filters.filterAcceptsRow qt day row = true)
  today : m.today ∈ m.days

/-- And the page shows them as they are. -/
structure Kept (qt : Qt Date) (m : Proxy Date) : Prop where
  passed : Passed qt m
  view : m.view = m.rows.map (data qt m.m_group_by)

theorem kept_start (today : Date) : Kept qt (Proxy.start today) where
  passed := ⟨⟨List.Pairwise.nil, by simp [Proxy.start]⟩, List.Pairwise.nil, List.Pairwise.nil, by simp [Proxy.start],
    by simp [Proxy.start], List.mem_singleton_self today⟩
  view := rfl

theorem Passed.same {m' : Proxy Date} (h : Passed qt m) (hsame : Proxy.Same m m') (hrows : m'.rows = m.rows) :
    Passed qt m' := by
  constructor
  · rw [hsame.source]; exact h.sourced
  · rw [hrows]; exact h.sorted
  · rw [hrows]; exact h.nodup
  · rw [hrows, hsame.source]; exact h.mem
  · rw [hrows, hsame.source, hsame.days, hsame.filters]; exact h.filtered
  · rw [hsame.today, hsame.days]; exact h.today

theorem Kept.reads {m' : Proxy Date} (h : Kept qt m) (hreads : Proxy.Reads m m') : Kept qt m' where
  passed := h.passed.same hreads.same hreads.rows
  view := by rw [hreads.rows, hreads.view, hreads.same.group]; exact h.view

theorem passed_filtered {kept rows : List (Row Variant)} (hsourced : Sourced m.source)
    (hfiltered : Filtered qt m.filters m.today m.source kept rows m.rows) (htoday : m.today ∈ m.days)
    (hkept : ∀ row ∈ kept, ∃ day ∈ m.days, (row ∈ rows ↔ m.filters.filterAcceptsRow qt day row = true)) :
    Passed qt m where
  sourced := hsourced
  sorted := hfiltered.sorted
  nodup := hfiltered.nodup
  mem := hfiltered.mem
  filtered row hrow := by
    rcases hfiltered.filtered row hrow with hlooked | ⟨hmem, hsame⟩
    · exact ⟨m.today, htoday, hlooked⟩
    · obtain ⟨day, hday, hiff⟩ := hkept row hmem
      exact ⟨day, hday, hsame.trans hiff⟩
  today := htoday

variable {r : Relay} {rows' : List (Row Variant)}

theorem showsSource_relay {roles : Option (List Int)} (hview : ShowsSource m.rows m.view)
    (hrelays : Relays m.rows roles r rows') : ShowsSource rows' (m.relay qt r).view := by
  rw [Proxy.relay_view]
  exact showsSource_replay hview hrelays.told

/-- Where no notice names what the headings are made of, the page goes on showing the data as they are. -/
theorem view_relay {roles : Option (List Int)} (hview : m.view = m.rows.map (data qt m.m_group_by))
    (hrelays : Relays m.rows roles r rows')
    (hroles : ∀ named ∈ roles, named = [] ∨ IsPendingRole ∉ named ∧ TimestampRole ∉ named ∧
      ∀ role ∈ named, role ∉ sectionRoles) :
    (m.relay qt r).view = rows'.map (data qt m.m_group_by) := by
  refine view_eq_of_derived (showsSource_relay (hview ▸ showsSource_data m.rows) hrelays) ?_
  rw [Proxy.relay_view]
  refine derived_replay ?_ ?_
  · exact fun n hn first last named hevent => hroles named (hrelays.named n hn first last named hevent)
  · rw [hview]
    intro shown hshown
    obtain ⟨row, -, rfl⟩ := List.mem_map.1 hshown
    exact derived_data row

theorem passed_refiltered (hsourced : Sourced m.source) (hdays : m.days = [m.today])
    (hrelays : Chain r.rows r.notices rows')
    (hfiltered : Filtered qt m.filters m.today m.source [] m.rows rows') : Passed qt (m.relay qt r) := by
  have hsame := @Proxy.relay_same Date qt m r
  have hrows : (m.relay qt r).rows = rows' := Proxy.relay_rows hrelays
  refine @passed_filtered Date qt _ [] m.rows ?_ ?_ ?_ (by simp)
  · rw [hsame.source]
    exact hsourced
  · rw [hsame.filters, hsame.today, hsame.source, hrows]
    exact hfiltered
  · rw [hsame.today, hsame.days, hdays]
    exact List.mem_singleton_self _

theorem kept_refiltered (hview : m.view = m.rows.map (data qt m.m_group_by)) (hsourced : Sourced m.source)
    (hdays : m.days = [m.today]) (hrefilters : Refilters qt m.filters m m.source r) : Kept qt (m.relay qt r) := by
  obtain ⟨rows', -, hrelays, hfiltered⟩ := hrefilters
  refine ⟨passed_refiltered hsourced hdays hrelays.chain hfiltered, ?_⟩
  rw [Proxy.relay_rows hrelays.chain, Proxy.relay_same.group]
  exact view_relay hview hrelays (by simp)

theorem kept_setTo [DecidableEq Date] (h : Kept qt m) {filters : Option (Filters Date)}
    (ha : ∀ f ∈ filters, m.filters ≠ f → Refilters qt f m m.source r) : Kept qt (m.setTo qt filters r) := by
  unfold Proxy.setTo
  rcases filters with _ | f
  · exact h
  simp only [Option.elim_some]
  unfold Proxy.setFilters
  split
  · exact h
  · rename_i hne
    have hkept := @kept_refiltered Date qt { m with filters := f, days := [m.today] } r h.view h.passed.sourced rfl
      (ha f rfl hne)
    exact hkept.reads Proxy.reads_countChanged

theorem kept_updateAvailableMaxAmount (h : Kept qt m) : Kept qt m.updateAvailableMaxAmount where
  passed := ⟨h.passed.sourced, h.passed.sorted, h.passed.nodup, h.passed.mem, h.passed.filtered, h.passed.today⟩
  view := h.view

theorem kept_setSourceModel {source_model : List (Row Variant)} (h : Kept qt m) (hsourced : Sourced source_model)
    (hrefilters : Refilters qt m.filters m source_model r) : Kept qt (m.setSourceModel qt source_model r) := by
  have hkept := @kept_refiltered Date qt { m with source := source_model, days := [m.today] } r h.view hsourced rfl
    hrefilters
  exact (kept_updateAvailableMaxAmount hkept).reads Proxy.reads_countChanged

theorem kept_sectionsChanged (h : Passed qt m) (hview : ShowsSource m.rows m.view) :
    Kept qt (m.sectionsChanged qt) where
  passed := h.same sectionsChanged_same sectionsChanged_rows
  view := by rw [sectionsChanged_rows, sectionsChanged_same.group]; exact sectionsChanged_view hview

theorem kept_setGroupBy (h : Kept qt m) {group_by : GroupBy} : Kept qt (m.setGroupBy qt group_by) := by
  unfold Proxy.setGroupBy
  split
  · exact h
  · have hpassed : Passed qt { m with m_group_by := group_by } :=
      ⟨h.passed.sourced, h.passed.sorted, h.passed.nodup, h.passed.mem, h.passed.filtered, h.passed.today⟩
    exact kept_sectionsChanged hpassed (h.view ▸ showsSource_data m.rows)

theorem not_changed {roles : List Int} {role : Int} (h : changed roles role = false) : roles ≠ [] ∧ role ∉ roles := by
  simpa [changed] using h

theorem ranged_eq (m : Proxy Date) (ranged : Bool) : (if ranged then m.updateAvailableMaxAmount else m) =
    { m with m_available_max_amount := if ranged then availableMax m.source else m.m_available_max_amount } := by
  cases ranged <;> rfl

theorem kept_sourceTold [DecidableEq Date] {n : Notice (Row Variant) Int} {proxied sorted : Relay} (h : Kept qt m)
    (ha : Allowed qt m (.sourceTold n proxied sorted)) : Kept qt (m.sourceTold qt n proxied sorted) := by
  obtain ⟨htells, rows', hrelays, hrest⟩ := ha
  -- after Qt's answer the page shows what the activity says
  have hsame := @Proxy.relay_same Date qt { m with source := n.after } proxied
  have hrows : ({ m with source := n.after }.relay qt proxied).rows = rows' := Proxy.relay_rows hrelays.chain
  have hsource : ShowsSource m.rows m.view := h.view ▸ showsSource_data m.rows
  have hshows := @showsSource_relay Date qt { m with source := n.after } proxied rows' _ hsource hrelays
  unfold Proxy.sourceTold
  dsimp only
  rw [ranged_eq]
  split
  · -- dates or what is pending may have changed
    rename_i hsections
    rw [if_pos hsections] at hrest
    obtain ⟨-, rows'', hrelays', hfiltered⟩ := hrest
    apply kept_sectionsChanged
    · apply passed_refiltered
      · rw [hsame.source]
        exact htells.sourced
      · rfl
      · exact hrelays'.chain
      · rw [hsame.filters, hsame.today, hsame.source, hrows]
        exact hfiltered
    · rw [Proxy.relay_rows hrelays'.chain]
      exact showsSource_relay (hrows ▸ hshows) (hrows ▸ hrelays')
  · rename_i hsections
    rw [if_neg hsections] at hrest
    refine ⟨?_, ?_⟩
    · refine @passed_filtered Date qt _ m.source m.rows ?_ ?_ ?_ ?_
      · rw [hsame.source]
        exact htells.sourced
      · rw [hsame.filters, hsame.today, hsame.source, hrows]
        exact hrest
      · rw [hsame.today, hsame.days]
        exact h.passed.today
      · rw [hsame.days, hsame.filters]
        exact h.passed.filtered
    · rw [hrows, hsame.group]
      refine @view_relay Date qt { m with source := n.after } proxied rows' _ h.view hrelays fun named hnamed => ?_
      -- only changed data has roles, and neither of the two is among them
      unfold rolesOf at hnamed
      split at hnamed
      · rename_i first last roles hevent
        cases hnamed
        simp only [changesSections, hevent, Bool.or_eq_true, not_or, Bool.not_eq_true] at hsections
        exact .inr ⟨(not_changed hsections.2).2, (not_changed hsections.1).2, htells.own first last named hevent⟩
      · cases hnamed

theorem kept_step [DecidableEq Date] (m : Proxy Date) (e : Event Date) (h : Kept qt m) (ha : Allowed qt m e) :
    Kept qt (m.step qt e) := by
  cases e with
  | dayPasses today =>
    refine ⟨⟨h.passed.sourced, h.passed.sorted, h.passed.nodup, h.passed.mem, fun row hrow => ?_,
      List.mem_cons_self⟩, h.view⟩
    obtain ⟨day, hday, hiff⟩ := h.passed.filtered row hrow
    exact ⟨day, List.mem_cons_of_mem _ hday, hiff⟩
  | sourceTold n proxied sorted => exact kept_sourceTold h ha
  | setSourceModel source_model r => exact kept_setSourceModel h ha.1 ha.2
  | setSearchText | setDateFilter | setTypeFilters | setAmountRange | applyCustomRange => exact kept_setTo h ha
  | setDisplayUnit display_unit =>
    unfold Proxy.step Proxy.setDisplayUnit
    dsimp only
    split
    · exact h
    · have hkept : Kept qt { m with m_display_unit := display_unit } :=
        ⟨⟨h.passed.sourced, h.passed.sorted, h.passed.nodup, h.passed.mem, h.passed.filtered, h.passed.today⟩, h.view⟩
      exact hkept.reads Proxy.reads_pendingBalanceChanged
  | setGroupBy group_by => exact kept_setGroupBy h
  | pendingBalanceSat => exact h.reads Proxy.reads_pendingBalanceSat

theorem kept_run [DecidableEq Date] {today : Date}
    (h : Reach.Reaches (Proxy.step qt) (Allowed qt) (Proxy.start today) m) : Kept qt m :=
  h.invariant (kept_start today) kept_step

/-! ## The filters -/

/-- A range is never inverted, and each type is there once. -/
structure Filters.WellFormed (f : Filters Date) : Prop where
  types : f.m_type_filters.Pairwise (· < ·)
  known : ∀ type ∈ f.m_type_filters, 0 < type ∧ type ≤ 9
  range : 0 ≤ f.m_min_amount → 0 ≤ f.m_max_amount → f.m_min_amount ≤ f.m_max_amount

namespace Filters

theorem mem_addType {normalized : List Int} {type t : Int} :
    t ∈ addType normalized type ↔ t ∈ normalized ∨ t = type ∧ 0 < t ∧ t ≤ 9 := by
  unfold addType
  split
  · rename_i htaken
    simp only [Bool.and_eq_true, decide_eq_true_eq] at htaken
    rw [List.mem_append, List.mem_singleton]
    constructor
    · rintro (h | rfl)
      · exact .inl h
      · exact .inr ⟨rfl, htaken.1⟩
    · rintro (h | ⟨rfl, -⟩)
      · exact .inl h
      · exact .inr rfl
  · rename_i hleft
    simp only [Bool.and_eq_true, decide_eq_true_eq, Bool.not_eq_true', not_and, Bool.not_eq_false,
      List.contains_iff_mem] at hleft
    constructor
    · exact .inl
    · rintro (h | ⟨rfl, hrange⟩)
      · exact h
      · exact hleft hrange

theorem nodup_addType {normalized : List Int} (h : normalized.Nodup) (type : Int) :
    (addType normalized type).Nodup := by
  unfold addType
  split
  · rename_i htaken
    simp only [Bool.and_eq_true, Bool.not_eq_true', ← Bool.not_eq_true, List.contains_iff_mem] at htaken
    rw [List.nodup_append]
    exact ⟨h, List.nodup_singleton _, fun a ha b hb heq =>
      htaken.2 ((heq.trans (List.mem_singleton.1 hb)) ▸ ha)⟩
  · exact h

theorem foldl_addType (types : List Int) {normalized : List Int} (h : normalized.Nodup) :
    (types.foldl addType normalized).Nodup ∧
    ∀ t, t ∈ types.foldl addType normalized ↔ t ∈ normalized ∨ t ∈ types ∧ 0 < t ∧ t ≤ 9 := by
  induction types generalizing normalized with
  | nil => simpa using h
  | cons type types ih =>
    obtain ⟨hnodup, hmem⟩ := ih (nodup_addType h type)
    refine ⟨hnodup, fun t => ?_⟩
    rw [List.foldl_cons, hmem, mem_addType, List.mem_cons, or_and_right, or_assoc]

theorem normalizeTypes_spec (types : List Int) : (normalizeTypes types).Pairwise (· < ·) ∧
    ∀ type, type ∈ normalizeTypes types ↔ type ∈ types ∧ 0 < type ∧ type ≤ 9 := by
  obtain ⟨hnodup, hmem⟩ := foldl_addType types List.nodup_nil
  have hperm := List.perm_insertionSort (· ≤ ·) (types.foldl addType [])
  have hsorted := List.pairwise_insertionSort (· ≤ ·) (types.foldl addType [])
  unfold normalizeTypes
  constructor
  · exact (hsorted.and (hperm.nodup_iff.2 hnodup)).imp fun h => lt_of_le_of_ne h.1 h.2
  · intro type
    rw [hperm.mem_iff, hmem]
    simp

variable {f f' : Filters Date}

theorem WellFormed.setAmountRange {minimum maximum : Int} (h : f.WellFormed)
    (hset : f.setAmountRange minimum maximum = some f') : f'.WellFormed := by
  unfold Filters.setAmountRange at hset
  simp only [Option.ite_none_left_eq_some, Option.some.injEq] at hset
  obtain ⟨hrange, rfl⟩ := hset
  exact ⟨h.types, h.known, fun hmin hmax => not_lt.1 fun hlt => hrange ⟨hmin, hmax, hlt⟩⟩

theorem WellFormed.applyCustomRange {start_iso end_iso : String} (h : f.WellFormed)
    (hset : f.applyCustomRange qt start_iso end_iso = some f') : f'.WellFormed := by
  unfold Filters.applyCustomRange at hset
  split at hset
  · split at hset
    · cases hset
    · cases hset
      exact ⟨h.types, h.known, h.range⟩
  · cases hset

end Filters

theorem wellFormed_filtersAfter [DecidableEq Date] (h : m.filters.WellFormed) (e : Event Date) {f : Filters Date}
    (hset : m.filtersAfter qt e = some f) : f.WellFormed := by
  unfold Proxy.filtersAfter at hset
  split at hset
  · cases hset
    exact ⟨h.types, h.known, h.range⟩
  · cases hset
    exact ⟨h.types, h.known, h.range⟩
  · cases hset
    obtain ⟨htypes, hmem⟩ := Filters.normalizeTypes_spec _
    exact ⟨htypes, fun type htype => ((hmem type).1 htype).2, h.range⟩
  · exact h.setAmountRange hset
  · exact h.applyCustomRange hset
  · cases hset

theorem filters_sourceTold {n : Notice (Row Variant) Int} {proxied sorted : Relay} :
    (m.sourceTold qt n proxied sorted).filters = m.filters := by
  unfold Proxy.sourceTold
  dsimp only
  rw [ranged_eq]
  split
  · rw [sectionsChanged_same.filters, Proxy.relay_same.filters]
    exact Proxy.relay_same.filters
  · exact Proxy.relay_same.filters

theorem filters_setTo [DecidableEq Date] (filters : Option (Filters Date)) :
    (m.setTo qt filters r).filters = filters.getD m.filters := by
  unfold Proxy.setTo
  rcases filters with _ | f
  · rfl
  simp only [Option.elim_some, Option.getD_some]
  unfold Proxy.setFilters
  split
  · assumption
  · rw [Proxy.reads_countChanged.same.filters, Proxy.relay_same.filters]

theorem filters_step [DecidableEq Date] (m : Proxy Date) (e : Event Date) :
    (m.step qt e).filters = (m.filtersAfter qt e).getD m.filters := by
  cases e with
  | dayPasses today => rfl
  | sourceTold n proxied sorted => exact filters_sourceTold
  | setSourceModel source_model r =>
    unfold Proxy.step Proxy.setSourceModel
    rw [Proxy.reads_countChanged.same.filters]
    exact Proxy.relay_same.filters
  | setSearchText | setDateFilter | setTypeFilters | setAmountRange | applyCustomRange => exact filters_setTo _
  | setDisplayUnit display_unit =>
    unfold Proxy.step Proxy.setDisplayUnit
    dsimp only
    split
    · rfl
    · exact Proxy.reads_pendingBalanceChanged.same.filters
  | setGroupBy group_by =>
    unfold Proxy.step Proxy.setGroupBy
    dsimp only
    split
    · rfl
    · exact sectionsChanged_same.filters
  | pendingBalanceSat => exact Proxy.reads_pendingBalanceSat.same.filters

/-- In every run the filters are well formed, whatever the page asks for. -/
theorem wellFormed_run [DecidableEq Date] {today : Date}
    (h : Reach.Reaches (Proxy.step qt) (Allowed qt) (Proxy.start today) m) : m.filters.WellFormed := by
  have hstart : (Proxy.start today).filters.WellFormed := by
    constructor
    · exact List.Pairwise.nil
    · simp [Proxy.start]
    · simp [Proxy.start]
  refine h.invariant (I := fun m => m.filters.WellFormed) hstart fun m e hm _ => ?_
  rw [filters_step]
  cases hset : m.filtersAfter qt e with
  | none => exact hm
  | some f => exact wellFormed_filtersAfter hm e hset

/-! ## The list -/

theorem filterAcceptsRow_day {f : Filters Date} (h : f.m_date_filter = .all ∨ f.m_date_filter = .customRange)
    (day day' : Date) (row : Row Variant) : f.filterAcceptsRow qt day row = f.filterAcceptsRow qt day' row := by
  unfold Filters.filterAcceptsRow Filters.dateMatches
  rcases h with h | h <;> simp [h]

/-- Unless the filter is about the current date and the date is another by now, the list is as it should be. -/
theorem Passed.shows (h : Passed qt m)
    (hday : m.filters.m_date_filter = .all ∨ m.filters.m_date_filter = .customRange ∨ ∀ day ∈ m.days, day = m.today) :
    ∀ row ∈ m.source, row ∈ m.rows ↔ m.filters.filterAcceptsRow qt m.today row = true := by
  intro row hrow
  obtain ⟨day, hmem, hiff⟩ := h.filtered row hrow
  have hsame : m.filters.filterAcceptsRow qt day row = m.filters.filterAcceptsRow qt m.today row := by
    rcases hday with hday | hday | hday
    · exact filterAcceptsRow_day (.inl hday) _ _ _
    · exact filterAcceptsRow_day (.inr hday) _ _ _
    · rw [hday day hmem]
  rw [hiff, hsame]

theorem Passed.perm (h : Passed qt m)
    (hday : m.filters.m_date_filter = .all ∨ m.filters.m_date_filter = .customRange ∨ ∀ day ∈ m.days, day = m.today) :
    m.rows.Perm (m.source.filter (m.filters.filterAcceptsRow qt m.today)) := by
  refine (List.perm_ext_iff_of_nodup h.nodup (h.sourced.ids.nodup.filter _)).2 fun row => ?_
  rw [List.mem_filter]
  constructor
  · intro hrow
    exact ⟨h.mem row hrow, (h.shows hday row (h.mem row hrow)).1 hrow⟩
  · rintro ⟨hrow, haccepts⟩
    exact (h.shows hday row hrow).2 haccepts

/-- In every run the list has exactly the rows of the activity that pass the filter (as of the last filtering,
where the filter is about the current date), pending ones first and then the latest first, each once. The page shows
their data as they are, also those that the proxy makes, and where the dates of the rows are written in order, every
heading stands once. -/
theorem listed_run [DecidableEq Date] {today : Date}
    (h : Reach.Reaches (Proxy.step qt) (Allowed qt) (Proxy.start today) m) :
    m.rows.Nodup ∧ (∀ row ∈ m.rows, row ∈ m.source) ∧
    (m.filters.m_date_filter = .all ∨ m.filters.m_date_filter = .customRange ∨ (∀ day ∈ m.days, day = m.today) →
      ∀ row ∈ m.source, row ∈ m.rows ↔ m.filters.filterAcceptsRow qt m.today row = true) ∧
    m.rows.Pairwise (fun a b => shownBefore a b = true) ∧
    m.view = m.rows.map (data qt m.m_group_by) ∧
    (Dates qt m.m_group_by (datedTimes m.rows) → ∀ (i : Nat) (_ : i < m.rows.length), ∃! j, ∃ _ : j < m.rows.length,
      Groups.isFirst (heading qt m.m_group_by) m.rows j = true ∧
        heading qt m.m_group_by m.rows[j] = heading qt m.m_group_by m.rows[i]) := by
  have hkept := kept_run h
  have hids : m.rows.Pairwise fun a b => variants.id a ≠ variants.id b :=
    hkept.passed.nodup.pairwise_of_forall_ne fun a ha b hb hne heq =>
      hne (hkept.passed.sourced.ids.inj (hkept.passed.mem a ha) (hkept.passed.mem b hb) heq)
  have hsorted := strict_of_sorted hids hkept.passed.sorted
  exact ⟨hkept.passed.nodup, hkept.passed.mem, hkept.passed.shows, hsorted, hkept.view, fun hdates i hi =>
    ((headings_together hdates hsorted).one_group hi).1⟩

/-! ### Four transactions and a request -/

theorem mem_iff_id {rows rows' : List (Row Variant)} (hids : Keyed variants.id rows) (hsub : ∀ row ∈ rows', row ∈ rows)
    {row : Row Variant} (hrow : row ∈ rows) : row ∈ rows' ↔ variants.id row ∈ rows'.map variants.id := by
  constructor
  · exact List.mem_map_of_mem
  · intro hid
    obtain ⟨row', hrow', heq⟩ := List.mem_map.1 hid
    rwa [← hids.inj (hsub row' hrow') hrow heq]

theorem filtered_of_ids {f : Filters Date} {today : Date} {source kept rows rows' : List (Row Variant)}
    (hids : Keyed variants.id source) (hsub : ∀ row ∈ rows', row ∈ source)
    (hsorted : rows'.Pairwise fun a b => lessThan a b = false) (hnodup : (rows'.map variants.id).Nodup)
    (haccepts : ∀ row ∈ source, variants.id row ∈ rows'.map variants.id ↔ f.filterAcceptsRow qt today row = true) :
    Filtered qt f today source kept rows rows' :=
  ⟨hsorted, hnodup.of_map, hsub, fun row hrow => .inl ((mem_iff_id hids hsub hrow).trans (haccepts row hrow))⟩

/-- The times asked for are on 31 August and on 13 and 14 November 2023. -/
def plainQt : Qt Int where
  addDays := (· + ·)
  addMonths date n := date + 30 * n
  addYears date n := date + 365 * n
  dayOfWeek date := (date + 3) % 7 + 1
  year _ := 2023
  month _ := 11
  ofYmd _ _ d := 19662 + d - 1
  less a b := a < b
  fromString _ := none
  startOfDay date := 86400 * date
  toString secs format :=
    if format = "yyyy-MM-dd"
    then if secs < 1698796800 then "2023-08-31" else if secs < 1699920000 then "2023-11-13" else "2023-11-14"
    else if secs < 1698796800 then "2023-08" else "2023-11"
  localeString secs format :=
    if format = "MMMM d, yyyy"
    then if secs < 1698796800 then "August 31, 2023"
      else if secs < 1699920000 then "November 13, 2023" else "November 14, 2023"
    else if format = "MMMM yyyy" then if secs < 1698796800 then "August 2023" else "November 2023"
    else if format = "h:mm AP" then "12:00 PM"
    else if secs < 1698796800 then "Aug 31, 12:00 PM"
    else if secs < 1699920000 then "Nov 13, 12:00 PM" else "Nov 14, 12:00 PM"
  trimmed text := text
  contains text search := decide (search.toLower.toList <:+: text.toLower.toList)

def noonTexts : Texts where
  formatAmount amount _ := toString amount
  fromIso _ := 1699876800

section Transaction

variable {txid : String} {time debit credit depth : Int}

def recordOf (txid : String) (time debit credit depth : Int) : Record where
  activity := { txid, timestamp := time, wallet_debit := debit, wallet_credit := credit }
  status := if depth = 0 then .unconfirmed else .confirmed
  depth
  blocks_to_maturity := 0
  status_known := true

theorem inactive_recordOf : (recordOf txid time debit credit depth).inactive = false := by
  unfold recordOf
  split <;> simp [Record.inactive, Record.replaced]

def transaction (txid : String) (time debit credit depth : Int) : Row Variant :=
  rowOf noonTexts [] (recordOf txid time debit credit depth)

@[simp] theorem id_transaction : variants.id (transaction txid time debit credit depth) = transactionId txid :=
  id_rowOf _

@[simp] theorem request_transaction : request (transaction txid time debit credit depth) = false := request_rowOf

@[simp] theorem pending_transaction : pending (transaction txid time debit credit depth) = (depth == 0) := by
  rw [transaction, pending_rowOf, inactive_recordOf]
  simp [recordOf]

@[simp] theorem timestamp_transaction : timestamp (transaction txid time debit credit depth) = time := by
  simp [transaction, recordOf]

@[simp] theorem netAmount_transaction : netAmount (transaction txid time debit credit depth) = credit - debit := by
  simp [transaction, recordOf, Interpret.TransactionActivity.walletImpact]

theorem isRow_transaction : IsRow (transaction txid time debit credit depth) := isRow_rowOf

/-- What a confirmation changes. -/
def confirmedRoles : List Int := [IsPendingRole, DepthRole, StatusRole]

theorem transaction_eq : transaction txid time debit credit depth = .ofList (transactionEntries noonTexts
    (recordOf txid time debit credit depth) { search := [txid], fulfilled := ∅ }) :=
  rfl

theorem data_transaction (depth' : Int) {role : Int} (hrole : role ∉ confirmedRoles) :
    variants.data (transaction txid time debit credit depth) role =
      variants.data (transaction txid time debit credit depth') role := by
  simp only [confirmedRoles, List.mem_cons, List.not_mem_nil, or_false, not_or] at hrole
  obtain ⟨hpending, hdepth, hstatus⟩ := hrole
  rw [transaction_eq, transaction_eq]
  refine data_ofList_congr (nodup_transactionEntries _ _) (nodup_transactionEntries _ _) fun value => ?_
  simp only [transactionEntries, inactive_recordOf, List.mem_cons, Prod.mk.injEq, hpending, hdepth, hstatus, false_and,
    false_or]
  rfl

end Transaction

abbrev spent : Row Variant := transaction "aa" 1699963200 100 30 6

abbrev incoming (depth : Int) : Row Variant := transaction "bb" 1699880400 0 50 depth

abbrev earlier : Row Variant := transaction "cc" 1693483200 0 500 100

abbrev arrived : Row Variant := transaction "dd" 1699966800 0 30 0

abbrev requested : Row Variant :=
  requestRow noonTexts {
    requestId := "1"
    address := "bc1qar0srrr7xfkvy5l643lydnw9re59gtzzwf5mdq"
    amountSat := 20
    dateIso := "2023-11-13T12:00:00Z" }

/-- The rows of the activity, with one that may arrive. -/
abbrev activity (depth : Int) (more : List (Row Variant)) : List (Row Variant) :=
  [requested, spent, incoming depth, earlier] ++ more

theorem sourced_activity (depth : Int) : Sourced (activity depth []) ∧ Sourced (activity depth [arrived]) := by
  constructor <;> constructor <;>
    simp [Keyed, transactionId_inj, Ne.symm (transactionId_ne _ _), isRow_transaction, isRow_requestRow]

theorem known_activity {rows : List (Row Variant)} (h : ∀ row ∈ rows, row ∈ activity 0 [arrived] ++ [incoming 1]) :
    ∀ row ∈ rows, IsRow row := by
  intro row hrow
  have hmem := h row hrow
  simp only [List.mem_append, List.mem_cons, List.not_mem_nil, or_false] at hmem
  rcases hmem with ((rfl | rfl | rfl | rfl) | rfl) | rfl
  · exact isRow_requestRow
  all_goals exact isRow_transaction

/-- The filter of the run. -/
abbrev range (date_filter : DateFilter) : Filters Int :=
  { m_date_filter := date_filter, m_min_amount := 10, m_max_amount := 100 }

theorem filtered_all : Filtered plainQt {} 19675 (activity 0 []) [] [] [incoming 0, requested, spent, earlier] := by
  refine filtered_of_ids (sourced_activity 0).1.ids (by simp) ?_ ?_ ?_
  · simp [lessThan, noonTexts]
  · simp [transactionId_inj, transactionId_ne, Ne.symm (transactionId_ne _ _)]
  · simp [Filters.filterAcceptsRow, Filters.dateMatches, Filters.typesMatch, Filters.amountMatches,
      Filters.searchMatches, plainQt]

theorem filtered_range {date_filter : DateFilter} (hday : date_filter = .all ∨ date_filter = .thisMonth)
    (rows : List (Row Variant)) :
    Filtered plainQt (range date_filter) 19675 (activity 0 []) [] rows [incoming 0, requested, spent] := by
  refine filtered_of_ids (sourced_activity 0).1.ids (by simp) ?_ ?_ ?_
  · simp [lessThan, noonTexts]
  · simp [transactionId_inj, transactionId_ne, Ne.symm (transactionId_ne _ _)]
  · rcases hday with rfl | rfl <;>
      simp [Filters.filterAcceptsRow, Filters.dateMatches, Filters.typesMatch, Filters.amountMatches,
        Filters.searchMatches, Filters.within, plainQt, noonTexts, transactionId_inj, transactionId_ne]

theorem filtered_arrived (rows : List (Row Variant)) : Filtered plainQt (range .thisMonth) 19675 (activity 0 [arrived])
    (activity 0 []) rows [arrived, incoming 0, requested, spent] := by
  refine filtered_of_ids (sourced_activity 0).2.ids (by simp) ?_ ?_ ?_
  · simp [lessThan, noonTexts]
  · simp [transactionId_inj, transactionId_ne, Ne.symm (transactionId_ne _ _)]
  · simp [Filters.filterAcceptsRow, Filters.dateMatches, Filters.typesMatch, Filters.amountMatches,
      Filters.searchMatches, Filters.within, plainQt, noonTexts, transactionId_inj, transactionId_ne]

theorem filtered_confirmed (rows : List (Row Variant)) : Filtered plainQt (range .thisMonth) 19675
    (activity 1 [arrived]) [] rows [arrived, requested, spent, incoming 1] := by
  refine filtered_of_ids (sourced_activity 1).2.ids (by simp) ?_ ?_ ?_
  · simp [lessThan, noonTexts]
  · simp [transactionId_inj, transactionId_ne, Ne.symm (transactionId_ne _ _)]
  · simp [Filters.filterAcceptsRow, Filters.dateMatches, Filters.typesMatch, Filters.amountMatches,
      Filters.searchMatches, Filters.within, plainQt, noonTexts, transactionId_inj, transactionId_ne]

/-- A confirmation: the row goes to its date, and the whole list is sorted once more. -/
abbrev confirmation : Event Int :=
  .sourceTold ⟨.changed 2 2 confirmedRoles, activity 1 [arrived], activity 1 [arrived]⟩
    ⟨[arrived, incoming 1, requested, spent],
      [⟨.reset, [arrived, incoming 1, requested, spent], [arrived, requested, spent, incoming 1]⟩,
        ⟨.changed 3 3 confirmedRoles, [arrived, requested, spent, incoming 1],
          [arrived, requested, spent, incoming 1]⟩]⟩
    ⟨[arrived, requested, spent, incoming 1],
      [⟨.reset, [arrived, requested, spent, incoming 1], [arrived, requested, spent, incoming 1]⟩]⟩

/-- The page groups by days and asks for amounts of this month. Then a transaction arrives, and another is confirmed. -/
def told : List (Event Int) :=
  [.setSourceModel (activity 0 []) ⟨[], [⟨.reset, [], [incoming 0, requested, spent, earlier]⟩]⟩,
    .setGroupBy .day, .setDisplayUnit 1,
    .setAmountRange 10 100 ⟨[incoming 0, requested, spent, earlier],
      [⟨.removed 3 3, [incoming 0, requested, spent, earlier], [incoming 0, requested, spent]⟩]⟩,
    .setDateFilter .thisMonth ⟨[incoming 0, requested, spent], []⟩,
    .sourceTold ⟨.inserted 4 4, activity 0 [], activity 0 [arrived]⟩ ⟨[incoming 0, requested, spent],
      [⟨.inserted 0 0, [incoming 0, requested, spent], [arrived, incoming 0, requested, spent]⟩]⟩ ⟨[], []⟩,
    confirmation]

abbrev confirmed : Proxy Int := told.foldl (Proxy.step plainQt) (Proxy.start 19675)

theorem reread_incoming :
    (View.ofData variants.data).reread confirmedRoles (incoming 1) (variants.data (incoming 0)) =
      variants.data (incoming 1) := by
  funext role
  unfold View.ofData
  dsimp only
  split
  · rfl
  · rename_i hrole
    rw [not_or] at hrole
    exact data_transaction 1 hrole.2

theorem apply_changed_shown {rows : List (Row Variant)} {first last : Nat} {roles : List Int} :
    (View.ofData variants.data).apply (rows.map variants.data) ⟨.changed first last roles, rows, rows⟩ =
      rows.map variants.data := by
  refine List.ext_getElem (by simp [View.apply]) fun i _ hi => ?_
  have hrows : i < rows.length := by simpa using hi
  simp only [View.apply, List.getElem_mapIdx, List.getElem_map, List.getElem?_eq_getElem hrows, Option.map_some,
    Option.getD_some]
  split
  · funext role
    simp [View.ofData]
  · rfl

theorem allowed_confirmation {m : Proxy Int} (hsource : m.source = activity 0 [arrived])
    (hrows : m.rows = [arrived, incoming 0, requested, spent]) (hfilters : m.filters = range .thisMonth)
    (htoday : m.today = 19675) : Allowed plainQt m confirmation := by
  have hown : ∀ role ∈ confirmedRoles, role ∉ sectionRoles := by decide
  have htells : Tells m.source ⟨.changed 2 2 confirmedRoles, activity 1 [arrived], activity 1 [arrived]⟩ := by
    refine ⟨(sourced_activity 1).2, ?_, ?_⟩
    · rw [hsource]
      simp [View.apply, reread_incoming]
    · rintro first last roles ⟨⟩
      exact hown
  refine ⟨htells, [arrived, requested, spent, incoming 1], ⟨?_, known_activity (by simp), ?_, ?_, ?_⟩, rfl, _,
    ⟨rfl, known_activity (by simp), ⟨rfl, by simp [Notice.Lawful], rfl⟩, by simp, rfl⟩, ?_⟩
  · rw [hrows]
    simp
  · exact ⟨rfl, by simp [Notice.Lawful], rfl, by simp [Notice.Lawful], rfl⟩
  · simp [rolesOf]
  · exact apply_changed_shown
  · rw [hfilters, htoday]
    exact filtered_confirmed _

theorem reaches_confirmed :
    Reach.Reaches (Proxy.step plainQt) (Allowed plainQt) (Proxy.start 19675) confirmed := by
  refine Reach.Reaches.play .refl ⟨?_, trivial, trivial, ?_, ?_, ?_, allowed_confirmation rfl rfl rfl rfl, trivial⟩
  · refine ⟨(sourced_activity 0).1, _, rfl, ⟨rfl, by simp, ?_, by simp, rfl⟩, filtered_all⟩
    exact ⟨rfl, by simp [Notice.Lawful], rfl⟩
  · rintro filters ⟨⟩ -
    refine ⟨_, rfl, ⟨rfl, known_activity (by simp), ?_, by simp, rfl⟩, filtered_range (.inl rfl) _⟩
    exact ⟨rfl, by simp [Notice.Lawful], rfl⟩
  · rintro filters ⟨⟩ -
    refine ⟨_, rfl, ⟨rfl, known_activity (by simp), rfl, by simp, rfl⟩, filtered_range (.inr rfl) _⟩
  · refine ⟨⟨(sourced_activity 0).2, rfl, by simp⟩, _, ⟨rfl, known_activity (by simp), ?_, by simp, rfl⟩,
      filtered_arrived _⟩
    exact ⟨rfl, by simp [Notice.Lawful], rfl⟩

theorem dates_confirmed : Dates plainQt confirmed.m_group_by (datedTimes confirmed.rows) := by
  have hgroup : confirmed.m_group_by = .day := rfl
  have htimes : datedTimes confirmed.rows = [1699963200, 1699880400] := by
    have hrows : confirmed.rows = [arrived, requested, spent, incoming 1] := rfl
    rw [hrows]
    simp [datedTimes]
  rw [hgroup, htimes]
  constructor
  · simp [plainQt, keyFormat]
  · simp [plainQt, keyFormat, labelFormat]
  · simp [plainQt, labelFormat]

theorem listed_run_confirmed :
    confirmed.rows = [arrived, requested, spent, incoming 1] ∧ confirmed.rows.Nodup ∧
    (earlier ∈ confirmed.source ∧ earlier ∉ confirmed.rows) ∧
    confirmed.rows.Pairwise (fun a b => shownBefore a b = true) ∧
    confirmed.view = confirmed.rows.map (data plainQt .day) ∧
    ∃! j, ∃ _ : j < confirmed.rows.length, Groups.isFirst (heading plainQt .day) confirmed.rows j = true ∧
      heading plainQt .day confirmed.rows[j] = heading plainQt .day requested := by
  obtain ⟨hnodup, -, hshows, hsorted, hview, hheadings⟩ := listed_run reaches_confirmed
  have hsource : earlier ∈ confirmed.source := by
    have h : confirmed.source = activity 1 [arrived] := rfl
    rw [h]
    simp
  refine ⟨rfl, hnodup, ⟨hsource, fun hrow => ?_⟩, hsorted, hview, hheadings dates_confirmed 1 (by decide)⟩
  have haccepts : (range .thisMonth).filterAcceptsRow plainQt 19675 earlier = true :=
    (hshows (.inr (.inr (by decide))) earlier hsource).1 hrow
  have hamount : (range .thisMonth).amountMatches earlier = false := by
    simp [Filters.amountMatches]
  simp [Filters.filterAcceptsRow, hamount] at haccepts

end GuiQml.ActivityList
