import GuiQml.Activity.Filter
import GuiQml.Lib.Keyed
import GuiQml.Lib.Told

/-!
# The proxy of the activity list

`ActivityFilterProxyModel` between the activity and the page. Which of its rows a `QSortFilterProxyModel` moves is
given with each event, as the notices that Qt emits: `Allowed` says what Qt promises of them. A `layoutChanged` is
a reset, since both have the rows read again. The page reads what a signal announces as soon as it comes. The
signals of the settings themselves, and what happens when the source is destroyed, are left out.
-/

namespace GuiQml.ActivityList

open Activity.Rows (IdRole IsPendingRequestRole Row)
open GuiQml.Rows
open Rebuild
open Wallet (CAmount)

/-- The notices of Qt, with the rows of the proxy as their data are when the first is emitted. -/
structure Relay where
  rows : List (Row Variant)
  notices : List (Notice (Row Variant) Int) := []

structure Proxy (Date : Type) where
  source : List (Row Variant) := []
  /-- The rows of the proxy. -/
  rows : List (Row Variant) := []
  filters : Filters Date := {}
  m_group_by : GroupBy := .month
  m_display_unit : Int := 0
  m_pending_balance : Option CAmount := none
  m_available_max_amount : CAmount := 0
  /-- The data that the page shows of each row. -/
  view : List (Int → Variant) := []
  /-- `count` and `requestCount` on the page. -/
  shown_counts : Nat × Nat := (0, 0)
  /-- The balance on the page, and the unit it is written in. -/
  shown_balance : CAmount × Int := (0, 0)
  today : Date
  /-- The days since all rows were filtered, the last one first. -/
  days : List Date

inductive Event (Date : Type)
  | dayPasses (today : Date)
  /-- The source tells of `event`, with its rows before and after. Qt answers it with `proxied`, and a call of
  `invalidate` with `sorted`. -/
  | sourceTold (notice : Notice (Row Variant) Int) (proxied sorted : Relay)
  | setSourceModel (source_model : List (Row Variant)) (relay : Relay)
  | setSearchText (search_text : String) (relay : Relay)
  | setDateFilter (date_filter : DateFilter) (relay : Relay)
  | setTypeFilters (types : List Int) (relay : Relay)
  | setAmountRange (minimum maximum : CAmount) (relay : Relay)
  | applyCustomRange (start_iso end_iso : String) (relay : Relay)
  | setDisplayUnit (display_unit : Int)
  | setGroupBy (group_by : GroupBy)
  | pendingBalanceSat

def requestCount (rows : List (Row Variant)) : Nat := rows.countP request

/-- What a row adds to the balance that is pending. -/
def pendingAmount (row : Row Variant) : CAmount := if pending row && !request row then netAmount row else 0

def pendingTotal (rows : List (Row Variant)) : CAmount := (rows.map pendingAmount).sum

/-- The amount of a row for the range to choose from. -/
def rangeAmount (row : Row Variant) : CAmount := if request row then 0 else ((netAmount row).natAbs : Int)

def availableMax (rows : List (Row Variant)) : CAmount := (rows.map rangeAmount).foldl max 0

/-- No roles mean that any may have changed. -/
def changed (roles : List Int) (role : Int) : Bool := roles.isEmpty || roles.contains role

def changesBalance (event : Rows.Event Int) : Bool :=
  match event with
  | .changed _ _ roles =>
    changed roles IsPendingRole || changed roles NetAmountSatRole || changed roles IsPendingRequestRole
  | _ => true

def changesRange (event : Rows.Event Int) : Bool :=
  match event with
  | .changed _ _ roles => changed roles NetAmountSatRole || changed roles IsPendingRequestRole
  | _ => true

def changesSections (event : Rows.Event Int) : Bool :=
  match event with
  | .changed _ _ roles => changed roles TimestampRole || changed roles IsPendingRole
  | _ => false

namespace Proxy

variable {Date : Type} (qt : Qt Date) (m : Proxy Date)

/-- The value, and that it is kept from now on. -/
def pendingBalanceSat : CAmount × Proxy Date :=
  match m.m_pending_balance with
  | some total => (total, m)
  | none => (pendingTotal m.rows, { m with m_pending_balance := some (pendingTotal m.rows) })

/-- The signal, on which the page reads the balance. -/
def pendingBalanceChanged : Proxy Date :=
  { m.pendingBalanceSat.2 with shown_balance := (m.pendingBalanceSat.1, m.m_display_unit) }

def invalidatePendingBalance : Proxy Date := { m with m_pending_balance := none }.pendingBalanceChanged

/-- The signal, on which the page reads the counts and the balance is invalidated. -/
def countChanged : Proxy Date :=
  { m with shown_counts := (m.rows.length, requestCount m.rows) }.invalidatePendingBalance

def updateAvailableMaxAmount : Proxy Date := { m with m_available_max_amount := availableMax m.source }

/-- A notice of the proxy: the page follows it, and the slots of the constructor run. -/
def hear (n : Notice (Row Variant) Int) : Proxy Date :=
  let m := { m with rows := n.after, view := (View.ofData (data qt m.m_group_by)).apply m.view n }
  match n.event with
  | .changed .. => if changesBalance n.event then m.invalidatePendingBalance else m
  | _ => m.countChanged

def relay (r : Relay) : Proxy Date := r.notices.foldl (·.hear qt) { m with rows := r.rows }

/-- `dataChanged` of the proxy's own roles in every row. -/
def sectionsChanged : Proxy Date :=
  if m.rows.isEmpty then m
  else m.hear qt ⟨.changed 0 (m.rows.length - 1) sectionRoles, m.rows, m.rows⟩

/-- Qt's part comes first, then the slot of `setSourceModel`. -/
def sourceTold (n : Notice (Row Variant) Int) (proxied sorted : Relay) : Proxy Date :=
  let m := { m with source := n.after }.relay qt proxied
  let m := if changesRange n.event then m.updateAvailableMaxAmount else m
  if changesSections n.event then ({ m with days := [m.today] }.relay qt sorted).sectionsChanged qt else m

def setSourceModel (source_model : List (Row Variant)) (r : Relay) : Proxy Date :=
  ({ m with source := source_model, days := [m.today] }.relay qt r).updateAvailableMaxAmount.countChanged

/-- A setter of the filters. -/
def setFilters [DecidableEq Date] (filters : Filters Date) (r : Relay) : Proxy Date :=
  if m.filters = filters then m
  else ({ m with filters, days := [m.today] }.relay qt r).countChanged

def setDisplayUnit (display_unit : Int) : Proxy Date :=
  if m.m_display_unit = display_unit then m
  else { m with m_display_unit := display_unit }.pendingBalanceChanged

def setGroupBy (group_by : GroupBy) : Proxy Date :=
  if m.m_group_by = group_by then m else { m with m_group_by := group_by }.sectionsChanged qt

variable [DecidableEq Date]

/-- The filters after an event that sets them, unless it refuses. -/
def filtersAfter : Event Date → Option (Filters Date)
  | .setSearchText search_text _ => some { m.filters with m_search_text := search_text }
  | .setDateFilter date_filter _ => some { m.filters with m_date_filter := date_filter }
  | .setTypeFilters types _ => some { m.filters with m_type_filters := Filters.normalizeTypes types }
  | .setAmountRange minimum maximum _ => m.filters.setAmountRange minimum maximum
  | .applyCustomRange start_iso end_iso _ => m.filters.applyCustomRange qt start_iso end_iso
  | _ => none

def setTo (filters : Option (Filters Date)) (r : Relay) : Proxy Date := filters.elim m (m.setFilters qt · r)

def step (m : Proxy Date) (e : Event Date) : Proxy Date :=
  match e with
  | .dayPasses today => { m with today, days := today :: m.days }
  | .sourceTold notice proxied sorted => m.sourceTold qt notice proxied sorted
  | .setSourceModel source_model r => m.setSourceModel qt source_model r
  | .setSearchText _ r | .setDateFilter _ r | .setTypeFilters _ r | .setAmountRange _ _ r
  | .applyCustomRange _ _ r => m.setTo qt (m.filtersAfter qt e) r
  | .setDisplayUnit display_unit => m.setDisplayUnit display_unit
  | .setGroupBy group_by => m.setGroupBy qt group_by
  | .pendingBalanceSat => m.pendingBalanceSat.2

end Proxy

def Proxy.start {Date : Type} (today : Date) : Proxy Date := { today, days := [today] }

/-! ## What Qt promises -/

/-- A row of the activity: its id tells a request from a transaction. -/
def IsRow (row : Row Variant) : Prop := request row = true ↔ ∃ request_id, variants.id row = requestRowId request_id

/-- The rows of an activity model. -/
structure Sourced (rows : List (Row Variant)) : Prop where
  ids : Keyed variants.id rows
  known : ∀ row ∈ rows, IsRow row

/-- The notices lead from `rows`, whose data may be new, to `rows'`. Whoever follows them sees the data of the
activity in every role, and roles are named only as the source named them. -/
structure Relays (rows : List (Row Variant)) (roles : Option (List Int)) (r : Relay) (rows' : List (Row Variant)) :
    Prop where
  ids : r.rows.map variants.id = rows.map variants.id
  known : ∀ row ∈ r.rows, IsRow row
  chain : Chain r.rows r.notices rows'
  named : ∀ n ∈ r.notices, ∀ first last named, n.event = .changed first last named → roles = some named
  told : (View.ofData variants.data).replay (rows.map variants.data) r.notices = rows'.map variants.data

section Filtered

variable {Date : Type} (qt : Qt Date)

/-- The rows of a proxy that filters and sorts. A row of `kept` need not be looked at again. -/
structure Filtered (filters : Filters Date) (today : Date) (source kept rows rows' : List (Row Variant)) :
    Prop where
  sorted : rows'.Pairwise fun a b => lessThan a b = false
  nodup : rows'.Nodup
  mem : ∀ row ∈ rows', row ∈ source
  filtered : ∀ row ∈ source, (row ∈ rows' ↔ filters.filterAcceptsRow qt today row = true) ∨
    row ∈ kept ∧ (row ∈ rows' ↔ row ∈ rows)

/-- All rows are looked at. -/
def Refilters (filters : Filters Date) (m : Proxy Date) (source : List (Row Variant)) (r : Relay) : Prop :=
  ∃ rows', r.rows = m.rows ∧ Relays m.rows none r rows' ∧ Filtered qt filters m.today source [] m.rows rows'

/-- What the source tells of leads from its rows to those behind the notice, in every role of its own. -/
structure Tells (source : List (Row Variant)) (n : Notice (Row Variant) Int) : Prop where
  sourced : Sourced n.after
  told : (View.ofData variants.data).apply (source.map variants.data) n = n.after.map variants.data
  own : ∀ first last roles, n.event = .changed first last roles → ∀ role ∈ roles, role ∉ sectionRoles

def rolesOf (event : Rows.Event Int) : Option (List Int) :=
  match event with
  | .changed _ _ roles => some roles
  | _ => none

def Allowed [DecidableEq Date] (m : Proxy Date) (e : Event Date) : Prop :=
  match e with
  | .sourceTold n proxied sorted =>
    Tells m.source n ∧ ∃ rows', Relays m.rows (rolesOf n.event) proxied rows' ∧
      if changesSections n.event then
        sorted.rows = rows' ∧ ∃ rows'', Relays rows' none sorted rows'' ∧
          Filtered qt m.filters m.today n.after [] rows' rows''
      else Filtered qt m.filters m.today n.after m.source m.rows rows'
  | .setSourceModel source_model r => Sourced source_model ∧ Refilters qt m.filters m source_model r
  | .setSearchText _ r | .setDateFilter _ r | .setTypeFilters _ r | .setAmountRange _ _ r
  | .applyCustomRange _ _ r => ∀ filters ∈ m.filtersAfter qt e, m.filters ≠ filters → Refilters qt filters m m.source r
  | _ => True

end Filtered

end GuiQml.ActivityList
