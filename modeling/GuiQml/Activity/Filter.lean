import GuiQml.Activity.Rebuild
import Mathlib.Data.List.Sort

/-!
# Which rows the activity list shows

What `ActivityFilterProxyModel` filters and sorts by: `filterAcceptsRow` with all that it calls, `lessThan`, the
setters of the filters and the roles that the proxy adds. Amounts are integers without a bound.
-/

namespace GuiQml.ActivityList

open Activity.Rows (IdRole IsPendingRequestRole Row UserRole)
open Interpret (ActivityType Direction)
open Rebuild
open Wallet (CAmount)

/-! ## What is asked of a row -/

def flag (row : Row Variant) (role : Int) : Bool := variants.toBool (variants.data row role)

def text (row : Row Variant) (role : Int) : String := variants.toString (variants.data row role)

def toLongLong : Variant → Int
  | .int n => n
  | _ => 0

def number (row : Row Variant) (role : Int) : Int := toLongLong (variants.data row role)

def actionsOf (row : Row Variant) : List ActionMap :=
  match variants.data row ActionsRole with
  | .actions actions => actions
  | _ => []

def pending (row : Row Variant) : Bool := flag row IsPendingRole

def request (row : Row Variant) : Bool := flag row IsPendingRequestRole

def timestamp (row : Row Variant) : Int := number row TimestampRole

def netAmount (row : Row Variant) : CAmount := number row NetAmountSatRole

def hasType (row : Row Variant) (type : ActivityType) : Bool := number row ActivityTypeRole == activityNumber type

/-! ## Qt -/

/-- Its dates and texts, in the time zone and the language in force. -/
structure Qt (Date : Type) where
  addDays : Date → Int → Date
  addMonths : Date → Int → Date
  addYears : Date → Int → Date
  dayOfWeek : Date → Int
  year : Date → Int
  month : Date → Int
  ofYmd : Int → Int → Int → Date
  less : Date → Date → Bool
  /-- No value where the text is no valid date. -/
  fromString : String → Option Date
  /-- The first second of a day. -/
  startOfDay : Date → Int
  /-- Of the seconds since the epoch, in a format. -/
  toString : Int → String → String
  localeString : Int → String → String
  trimmed : String → String
  /-- Whatever the case of the letters. -/
  contains : String → String → Bool

/-! ## The filters -/

inductive DateFilter
  | all | today | thisWeek | thisMonth | thisYear | customRange
  deriving DecidableEq, Repr

inductive TypeFilter
  | all | received | sent | sentToSelf | mined | other | paymentRequest | multiple | consolidation | split
  deriving DecidableEq, Repr

def TypeFilter.ofInt : Int → Option TypeFilter
  | 0 => some .all
  | 1 => some .received
  | 2 => some .sent
  | 3 => some .sentToSelf
  | 4 => some .mined
  | 5 => some .other
  | 6 => some .paymentRequest
  | 7 => some .multiple
  | 8 => some .consolidation
  | 9 => some .split
  | _ => none

structure Filters (Date : Type) where
  m_search_text : String := ""
  m_date_filter : DateFilter := .all
  m_type_filters : List Int := []
  m_min_amount : CAmount := -1
  m_max_amount : CAmount := -1
  /-- No value where the date is not valid. -/
  m_range_start : Option Date := none
  m_range_end : Option Date := none
  deriving DecidableEq

def typeMatches (row : Row Variant) (filter : TypeFilter) : Bool :=
  match filter with
  | .all => true
  | .paymentRequest => flag row HasPaymentRequestRole
  | .multiple => !request row && hasType row .multiple
  | .consolidation => !request row && hasType row .consolidation
  | .split => !request row && hasType row .split
  | .sentToSelf =>
    !request row && (hasType row .internalTransfer || hasType row .consolidation || hasType row .split)
  | .mined => !request row && hasType row .mined
  | .other => !request row && hasType row .other
  | .received => !request row && !hasType row .mined && (actionsOf row).any fun action => action.direction = .receive
  | .sent => !request row && !hasType row .mined && (actionsOf row).any fun action => action.direction = .send

namespace Filters

variable {Date : Type} (qt : Qt Date) (f : Filters Date)

/-- The days from `start_date` up to the one before `end_date`. -/
def within (time : Int) (start_date end_date : Date) : Bool :=
  qt.startOfDay start_date ≤ time && time < qt.startOfDay end_date

def dateMatches (current_date : Date) (time : Int) : Bool :=
  if f.m_date_filter = .all then true
  else if time ≤ 0 then false
  else
    match f.m_date_filter with
    | .all => true
    | .today => within qt time current_date (qt.addDays current_date 1)
    | .thisWeek =>
      let start_date := qt.addDays current_date (-(qt.dayOfWeek current_date - 1))
      within qt time start_date (qt.addDays start_date 7)
    | .thisMonth =>
      let start_date := qt.ofYmd (qt.year current_date) (qt.month current_date) 1
      within qt time start_date (qt.addMonths start_date 1)
    | .thisYear =>
      let start_date := qt.ofYmd (qt.year current_date) 1 1
      within qt time start_date (qt.addYears start_date 1)
    | .customRange =>
      !(f.m_range_start.any fun start => time < qt.startOfDay start) &&
        !(f.m_range_end.any fun last => qt.startOfDay (qt.addDays last 1) ≤ time)

def typesMatch (row : Row Variant) : Bool :=
  f.m_type_filters.isEmpty ||
    f.m_type_filters.any fun type => (TypeFilter.ofInt type).any (typeMatches row)

def amountMatches (row : Row Variant) : Bool :=
  let amount := ((netAmount row).natAbs : Int)
  !(0 ≤ f.m_min_amount && amount < f.m_min_amount) && !(0 ≤ f.m_max_amount && f.m_max_amount < amount)

def searchMatches (row : Row Variant) : Bool :=
  let search := qt.trimmed f.m_search_text
  search.isEmpty || qt.contains (text row SearchTextRole) search || qt.contains (text row AddressRole) search ||
    qt.contains (text row LabelRole) search || qt.contains (text row TxidRole) search

def filterAcceptsRow (current_date : Date) (row : Row Variant) : Bool :=
  f.dateMatches qt current_date (timestamp row) && f.typesMatch row && f.amountMatches row && f.searchMatches qt row

end Filters

/-! ## The order and the roles that are added -/

def lessThan (left right : Row Variant) : Bool :=
  if pending left ≠ pending right then !pending left
  else if timestamp left = timestamp right then variants.id left < variants.id right
  else timestamp left < timestamp right

inductive GroupBy
  | month | day
  deriving DecidableEq, Repr

def SectionKeyRole : Int := UserRole + 200

def SectionLabelRole : Int := UserRole + 201

def DateTimeLabelRole : Int := UserRole + 202

def sectionRoles : List Int := [SectionKeyRole, SectionLabelRole, DateTimeLabelRole]

section Sections

variable {Date : Type} (qt : Qt Date) (m_group_by : GroupBy)

def keyFormat : String := if m_group_by = .day then "yyyy-MM-dd" else "yyyy-MM"

def labelFormat : String := if m_group_by = .day then "MMMM d, yyyy" else "MMMM yyyy"

def timeFormat (pending : Bool) : String :=
  if m_group_by = .day ∧ pending = false then "h:mm AP" else "MMM d, h:mm AP"

def sectionLabel (pending : Bool) (date : Int) : String :=
  if pending then "Pending" else qt.localeString date (labelFormat m_group_by)

/-- The data in a role of the proxy's own. -/
def sectionData (pending : Bool) (date : Int) (role : Int) : Variant :=
  if role = DateTimeLabelRole then .str (qt.localeString date (timeFormat m_group_by pending))
  else if role = SectionKeyRole then .str (if pending then "pending" else qt.toString date (keyFormat m_group_by))
  else .str (sectionLabel qt m_group_by pending date)

def data (row : Row Variant) (role : Int) : Variant :=
  if sectionRoles.contains role then sectionData qt m_group_by (pending row) (timestamp row) role
  else variants.data row role

end Sections

/-! ## Setting the filters -/

namespace Filters

variable {Date : Type} [DecidableEq Date] (qt : Qt Date) (f : Filters Date)

def addType (normalized : List Int) (type : Int) : List Int :=
  if 0 < type && type ≤ 9 && !normalized.contains type then normalized ++ [type] else normalized

/-- Each type once, in order, and `TypeAll` never. -/
def normalizeTypes (types : List Int) : List Int := (types.foldl addType []).insertionSort (· ≤ ·)

def setAmountRange (minimum maximum : CAmount) : Option (Filters Date) :=
  let minimum := if minimum < 0 then -1 else minimum
  let maximum := if maximum < 0 then -1 else maximum
  if 0 ≤ minimum ∧ 0 ≤ maximum ∧ maximum < minimum then none
  else some { f with m_min_amount := minimum, m_max_amount := maximum }

def applyCustomRange (start_iso end_iso : String) : Option (Filters Date) :=
  match qt.fromString start_iso, qt.fromString end_iso with
  | some start, some last =>
    if qt.less last start then none
    else some { f with m_range_start := some start, m_range_end := some last, m_date_filter := .customRange }
  | _, _ => none

end Filters

end GuiQml.ActivityList
