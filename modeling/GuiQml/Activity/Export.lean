import GuiQml.Activity.Interpret
import GuiQml.Amount.Shown
import GuiQml.Lib.Csv
import GuiQml.Lib.Program
import Mathlib.Data.List.Forall2

/-!
# The exported activity

`ActivityFilterProxyModel::exportCsv`: the rows that are shown, as a file of comma-separated values. Labels
and addresses are what others wrote, so the cells that hold them are guarded against spreadsheets.
-/

namespace GuiQml.Export

open Amount
open Interpret (ActivityType Direction)
open Wallet (CAmount)

/-! ## Cells and rows -/

/-- `QString::replace` of a character. -/
def replace (value : Str) (before : Char) (after : Str) : Str :=
  value.flatMap fun c => if c = before then after else [c]

def writeCsvValue (stream value : Str) : Str :=
  let value := replace value '"' ['"', '"']
  stream ++ ['"'] ++ value ++ ['"']

def dangerousLeads : Str := "=+-@\t\r\n".toList

def guardedCsvText (value : Str) : Str :=
  match value with
  | [] => value
  | c :: _ => if c ∈ dangerousLeads then '\'' :: value else value

def writeCsvRow (stream : Str) (values : List Str) : Str :=
  (values.zipIdx.foldl (fun stream (value, i) =>
    writeCsvValue (if 0 < i then stream ++ [','] else stream) value) stream) ++ ['\n']

/-! ## The model -/

inductive Status
  | confirmed | unconfirmed | confirming | conflicted | abandoned | immature | notAccepted
  deriving DecidableEq, Repr

structure Action where
  direction : Direction
  label : Str
  address : Str
  actionId : Str
  amountSat : CAmount
  deriving DecidableEq, Repr

/-- What the export reads of a row, role by role. -/
structure Row where
  timestamp : Int
  status : Status
  statusKnown : Bool
  replacedByTxid : Str
  depth : Int
  netAmountSat : CAmount
  isPendingRequest : Bool
  activityType : ActivityType
  label : Str
  address : Str
  txid : Str
  actions : List Action
  deriving DecidableEq, Repr

structure ActivityFilterProxyModel where
  rows : List Row
  m_display_unit : Int

/-- The texts of Qt. -/
structure QtTexts where
  tr : String → Str
  /-- The local time of a timestamp, as `yyyy-MM-dd HH:mm:ss`. -/
  dateTime : Int → Str

/-- The files as the export meets them. -/
structure Files where
  /-- The path that a URL of a local file names. -/
  toLocalFile : Str → Option Str
  opens : Str → Bool
  /-- Whether a text gets out without an error. -/
  noError : Str → Str → Bool

variable (qt : QtTexts)

def exportTypeLabelForIndex (row : Row) : Str :=
  if row.isPendingRequest then qt.tr "Payment request"
  else
    match row.activityType with
    | .send => qt.tr "Sent"
    | .receive => qt.tr "Received"
    | .multiple => qt.tr "Multiple actions"
    | .consolidation => qt.tr "Consolidation"
    | .split => qt.tr "Split"
    | .internalTransfer => qt.tr "Sent to yourself"
    | .mined => qt.tr "Mined"
    | .other => qt.tr "Other"

def Row.replaced (row : Row) : Bool := !row.replacedByTxid.isEmpty && (!row.statusKnown || row.depth ≤ 0)

def statusLabel (row : Row) : Str :=
  if row.isPendingRequest then qt.tr "Awaiting payment"
  else if row.replaced then qt.tr "Replaced"
  else if !row.statusKnown then qt.tr "Unknown"
  else
    match row.status with
    | .confirmed => qt.tr "Confirmed"
    | .confirming => qt.tr "Confirming"
    | .unconfirmed => qt.tr "Unconfirmed"
    | .conflicted => qt.tr "Conflicted"
    | .abandoned => qt.tr "Abandoned"
    | .immature => qt.tr "Immature"
    | .notAccepted => qt.tr "Not accepted"

variable (unit : QmlBitcoinUnits.Unit)

def withUnit (text : Str) : Str := text ++ " (".toList ++ QmlBitcoinUnits.label unit ++ ")".toList

def header : List Str :=
  [qt.tr "Confirmed", qt.tr "Date", qt.tr "Type", qt.tr "Label", qt.tr "Address", withUnit unit (qt.tr "Amount"),
    qt.tr "ID", qt.tr "Record", qt.tr "Action ID", qt.tr "Status", withUnit unit (qt.tr "Action amount")]

def rowValues (row : Row) : Except Int64.Fault (List Str) := do
  let confirmed := row.status = .confirming || row.status = .confirmed
  let amount := if row.replaced then 0 else row.netAmountSat
  let shown ← QmlBitcoinUnits.format unit amount false .never
  .ok [if confirmed then "true".toList else "false".toList, qt.dateTime row.timestamp,
    exportTypeLabelForIndex qt row, guardedCsvText row.label, guardedCsvText row.address, shown,
    if row.isPendingRequest then [] else row.txid,
    if row.isPendingRequest then qt.tr "Payment request" else qt.tr "Transaction", [], statusLabel qt row, []]

/-- Amounts that are sent count below zero. -/
def actionAmount (action : Action) : Except Int64.Fault CAmount :=
  if action.direction = .send then Int64.sub 0 action.amountSat else .ok action.amountSat

/-- The cells of an action. The first two and the seventh are those of its transaction. -/
def actionValues (row : Row) (values : List Str) (action : Action) : Except Int64.Fault (List Str) := do
  let amount ← actionAmount action
  let shown ← QmlBitcoinUnits.format unit amount false .never
  .ok [values.getD 0 [], values.getD 1 [],
    match action.direction with
    | .send => qt.tr "Sent"
    | .receive => qt.tr "Received"
    | .internal => qt.tr "Internal",
    guardedCsvText action.label, guardedCsvText action.address, [], values.getD 6 [], qt.tr "Action",
    guardedCsvText action.actionId, statusLabel qt row, shown]

/-- One turn of the loop over the rows. -/
def exportRow (stream : Str) (row : Row) : Except Int64.Fault Str := do
  let values ← rowValues qt unit row
  let stream := writeCsvRow stream values
  if row.isPendingRequest || row.actions.length ≤ 1 then .ok stream
  else row.actions.foldlM (fun stream action => do
    .ok (writeCsvRow stream (← actionValues qt unit row values action))) stream

def exportText (proxy : ActivityFilterProxyModel) : Except Int64.Fault Str :=
  let unit := QmlBitcoinUnits.fromDisplayUnit proxy.m_display_unit
  proxy.rows.foldlM (exportRow qt unit) (writeCsvRow [] (header qt unit))

def normalizedExportPath (files : Files) (path : Str) : Str := (files.toLocalFile path).getD path

/-- What is returned, and the file with its text where one is written. -/
def exportCsv (files : Files) (proxy : ActivityFilterProxyModel) (path : Str) :
    Except Int64.Fault (Bool × Option (Str × Str)) := do
  let filename := normalizedExportPath files path
  if filename.isEmpty then .ok (false, none)
  else if !files.opens filename then .ok (false, none)
  else
    let text ← exportText qt proxy
    .ok (files.noError filename text, some (filename, text))

/-! ## Guarded cells -/

/-- The characters at which a spreadsheet evaluates a cell. -/
def evaluated : List Char := ['=', '+', '-', '@', '\t', '\r', '\n']

/-- A cell for a value that others wrote. -/
structure Guarded (value cell : Str) : Prop where
  not_evaluated : ∀ c, cell.head? = some c → c ∉ evaluated
  same_text : cell = value ∨ cell = '\'' :: value

theorem dangerousLeads_eq : dangerousLeads = evaluated := by decide

theorem guarded_guardedCsvText (value : Str) : Guarded value (guardedCsvText value) := by
  cases value with
  | nil => exact ⟨by simp [guardedCsvText], .inl rfl⟩
  | cons c value =>
    simp only [guardedCsvText, dangerousLeads_eq]
    split
    · exact ⟨by simp [evaluated], .inr rfl⟩
    · rename_i hlead
      refine ⟨?_, .inl rfl⟩
      intro c' hc'
      obtain rfl := Option.some.inj hc'
      exact hlead

theorem guarded_nil : Guarded [] [] := guarded_guardedCsvText []

/-! ## The text as records -/

def rfc4180 : Csv.Dialect Char where
  quote := '"'
  separator := ','
  newline := '\n'
  separator_ne_quote := by decide
  newline_ne_quote := by decide
  newline_ne_separator := by decide

theorem writeCsvValue_eq (stream value : Str) :
    writeCsvValue stream value = stream ++ Csv.writeCell rfc4180 value := by
  have hreplace : replace value '"' ['"', '"'] = Csv.escape rfc4180 value := by
    unfold replace Csv.escape
    congr 1
    funext c
    by_cases hc : c = '"'
    · simp [hc, rfc4180]
    · simp [hc, rfc4180]
  simp [writeCsvValue, hreplace, Csv.writeCell, rfc4180]

theorem foldl_writeCsvValue (values : List Str) (k : Nat) (stream : Str) :
    (values.zipIdx (k + 1)).foldl (fun stream (value, i) =>
        writeCsvValue (if 0 < i then stream ++ [','] else stream) value) stream =
      stream ++ Csv.writeRest rfc4180 values := by
  induction values generalizing k stream with
  | nil => simp [Csv.writeRest]
  | cons value values ih =>
    simp only [List.zipIdx_cons, List.foldl_cons, Nat.zero_lt_succ, if_true]
    rw [ih, writeCsvValue_eq]
    simp [Csv.writeRest, rfc4180]

theorem writeCsvRow_eq (stream : Str) (values : List Str) :
    writeCsvRow stream values = stream ++ Csv.writeRecord rfc4180 values := by
  cases values with
  | nil => rfl
  | cons value values =>
    simp only [writeCsvRow, List.zipIdx_cons, List.foldl_cons, Nat.lt_irrefl, if_false]
    rw [foldl_writeCsvValue, writeCsvValue_eq]
    simp [Csv.writeRecord, rfc4180]

theorem writeCsvRow_write (records : List (List Str)) (values : List Str) :
    writeCsvRow (Csv.write rfc4180 records) values = Csv.write rfc4180 (records ++ [values]) := by
  rw [writeCsvRow_eq]
  simp [Csv.write]

/-! ## What the records say -/

section Records

variable {qt unit}

/-- The record of a row: the values that the writer is given, with the texts of others guarded. -/
structure RowRecord (qt : QtTexts) (unit : QmlBitcoinUnits.Unit) (row : Row) (record : List Str) : Prop where
  values : rowValues qt unit row = .ok record
  width : record.length = (header qt unit).length
  label : Guarded row.label (record.getD 3 [])
  address : Guarded row.address (record.getD 4 [])
  action_id : Guarded [] (record.getD 8 [])

/-- The record of an action below the record of its row. -/
structure ActionRecord (qt : QtTexts) (unit : QmlBitcoinUnits.Unit) (row : Row) (parent : List Str)
    (action : Action) (record : List Str) : Prop where
  values : actionValues qt unit row parent action = .ok record
  width : record.length = (header qt unit).length
  label : Guarded action.label (record.getD 3 [])
  address : Guarded action.address (record.getD 4 [])
  action_id : Guarded action.actionId (record.getD 8 [])

/-- The actions that have records: those of a transaction with more than one. -/
def exportedActions (row : Row) : List Action :=
  if row.isPendingRequest = false ∧ 1 < row.actions.length then row.actions else []

/-- The records of a row: its own one and those of its actions. -/
def RowRecords (qt : QtTexts) (unit : QmlBitcoinUnits.Unit) (row : Row) (records : List (List Str)) : Prop :=
  ∃ parent children, records = parent :: children ∧ RowRecord qt unit row parent ∧
    List.Forall₂ (ActionRecord qt unit row parent) (exportedActions row) children

/-- The table of the rows: the header, and then for each row its records. -/
def Table (qt : QtTexts) (unit : QmlBitcoinUnits.Unit) (rows : List Row) (table : List (List Str)) : Prop :=
  ∃ groups, table = header qt unit :: groups.flatten ∧ List.Forall₂ (RowRecords qt unit) rows groups

theorem rowRecord_of_values {row : Row} {record : List Str} (h : rowValues qt unit row = .ok record) :
    RowRecord qt unit row record := by
  have hvalues := h
  unfold rowValues at h
  obtain ⟨shown, -, h⟩ := bind_eq_ok.mp h
  obtain rfl := Except.ok.inj h
  exact ⟨hvalues, rfl, guarded_guardedCsvText row.label, guarded_guardedCsvText row.address, guarded_nil⟩

theorem actionRecord_of_values {row : Row} {parent record : List Str} {action : Action}
    (h : actionValues qt unit row parent action = .ok record) : ActionRecord qt unit row parent action record := by
  have hvalues := h
  unfold actionValues at h
  obtain ⟨amount, -, h⟩ := bind_eq_ok.mp h
  obtain ⟨shown, -, h⟩ := bind_eq_ok.mp h
  obtain rfl := Except.ok.inj h
  exact ⟨hvalues, rfl, guarded_guardedCsvText action.label, guarded_guardedCsvText action.address,
    guarded_guardedCsvText action.actionId⟩

theorem foldlM_actions {row : Row} {parent : List Str} {actions : List Action} {written : List (List Str)}
    {text : Str}
    (h : actions.foldlM (fun stream action => do
      .ok (writeCsvRow stream (← actionValues qt unit row parent action))) (Csv.write rfc4180 written) = .ok text) :
    ∃ children, text = Csv.write rfc4180 (written ++ children) ∧
      List.Forall₂ (ActionRecord qt unit row parent) actions children := by
  induction actions generalizing written with
  | nil =>
    obtain rfl := Except.ok.inj h
    exact ⟨[], by simp, .nil⟩
  | cons action actions ih =>
    obtain ⟨stream, hstep, hrest⟩ := bind_eq_ok.mp h
    obtain ⟨values, hvalues, hstep⟩ := bind_eq_ok.mp hstep
    obtain rfl := Except.ok.inj hstep
    rw [writeCsvRow_write] at hrest
    obtain ⟨children, rfl, hchildren⟩ := ih hrest
    exact ⟨values :: children, by simp, .cons (actionRecord_of_values hvalues) hchildren⟩

theorem exportRow_written {row : Row} {written : List (List Str)} {text : Str}
    (h : exportRow qt unit (Csv.write rfc4180 written) row = .ok text) :
    ∃ records, text = Csv.write rfc4180 (written ++ records) ∧ RowRecords qt unit row records := by
  unfold exportRow at h
  obtain ⟨parent, hparent, h⟩ := bind_eq_ok.mp h
  rw [writeCsvRow_write] at h
  have hrecord := rowRecord_of_values hparent
  split at h
  · rename_i hsingle
    obtain rfl := Except.ok.inj h
    have hnone : exportedActions row = [] := by
      rw [exportedActions, if_neg]
      intro hmany
      simp [hmany.1] at hsingle
      omega
    exact ⟨[parent], rfl, parent, [], rfl, hrecord, hnone ▸ .nil⟩
  · rename_i hmany
    have hall : exportedActions row = row.actions := by
      rw [exportedActions, if_pos]
      simpa using hmany
    obtain ⟨children, rfl, hchildren⟩ := foldlM_actions h
    exact ⟨parent :: children, by simp, parent, children, rfl, hrecord, hall ▸ hchildren⟩

theorem foldlM_exportRow {rows : List Row} {written : List (List Str)} {text : Str}
    (h : rows.foldlM (exportRow qt unit) (Csv.write rfc4180 written) = .ok text) :
    ∃ groups, text = Csv.write rfc4180 (written ++ groups.flatten) ∧
      List.Forall₂ (RowRecords qt unit) rows groups := by
  induction rows generalizing written with
  | nil =>
    obtain rfl := Except.ok.inj h
    exact ⟨[], by simp, .nil⟩
  | cons row rows ih =>
    obtain ⟨stream, hrow, hrest⟩ := bind_eq_ok.mp h
    obtain ⟨records, rfl, hrecords⟩ := exportRow_written hrow
    obtain ⟨groups, rfl, hgroups⟩ := ih hrest
    exact ⟨records :: groups, by simp, .cons hrecords hgroups⟩

theorem exists_of_mem_right {α β : Type} {R : α → β → Prop} {xs : List α} {ys : List β}
    (h : List.Forall₂ R xs ys) {y : β} (hy : y ∈ ys) : ∃ x ∈ xs, R x y := by
  induction h with
  | nil => cases hy
  | cons hR _ ih =>
    rcases List.mem_cons.mp hy with rfl | hy
    · exact ⟨_, by simp, hR⟩
    · obtain ⟨x, hx, hR⟩ := ih hy
      exact ⟨x, by simp [hx], hR⟩

theorem RowRecords.width {row : Row} {records : List (List Str)} (h : RowRecords qt unit row records) :
    ∀ record ∈ records, record.length = (header qt unit).length := by
  obtain ⟨parent, children, rfl, hparent, hchildren⟩ := h
  intro record hmem
  rcases List.mem_cons.mp hmem with rfl | hmem
  · exact hparent.width
  · obtain ⟨action, -, hrecord⟩ := exists_of_mem_right hchildren hmem
    exact hrecord.width

theorem Table.width {rows : List Row} {table : List (List Str)} (h : Table qt unit rows table) :
    ∀ record ∈ table, record.length = (header qt unit).length := by
  obtain ⟨groups, rfl, hgroups⟩ := h
  intro record hmem
  rcases List.mem_cons.mp hmem with rfl | hmem
  · rfl
  · obtain ⟨records, hrecords, hmem⟩ := List.mem_flatten.mp hmem
    obtain ⟨row, -, hrow⟩ := exists_of_mem_right hgroups hrecords
    exact hrow.width record hmem

end Records

/-! ## Every row can be shown -/

/-- A 64-bit number whose opposite is one too. -/
def HasOpposite (n : Int) : Prop := -Int64.largest ≤ n ∧ n ≤ Int64.largest

/-- The amounts of the row have opposites. -/
def Row.Shown (row : Row) : Prop :=
  HasOpposite row.netAmountSat ∧ ∀ action ∈ row.actions, HasOpposite action.amountSat

theorem absolute_ok {n : Int} (h : -Int64.largest ≤ n) : ∃ n_abs, QmlBitcoinUnits.absolute n = .ok n_abs := by
  unfold QmlBitcoinUnits.absolute
  split
  · exact ⟨n, rfl⟩
  · refine ⟨_, Int64.narrow_of_fits ?_⟩
    simp only [Int64.Fits, Int64.largest, Int64.smallest] at *
    omega

theorem format_ok {amount : Int} (h : -Int64.largest ≤ amount) :
    ∃ shown, QmlBitcoinUnits.format unit amount false .never = .ok shown := by
  obtain ⟨n_abs, habs⟩ := absolute_ok h
  unfold QmlBitcoinUnits.format
  rw [habs]
  by_cases hplaces : QmlBitcoinUnits.decimals unit = 0
  · exact ⟨_, if_pos hplaces⟩
  · exact ⟨_, if_neg hplaces⟩

theorem rowValues_ok {row : Row} (h : row.Shown) : ∃ values, rowValues qt unit row = .ok values := by
  have hamount : -Int64.largest ≤ if row.replaced then 0 else row.netAmountSat := by
    split
    · decide
    · exact h.1.1
  obtain ⟨shown, hshown⟩ := format_ok unit hamount
  exact ⟨_, bind_eq_ok.mpr ⟨shown, hshown, rfl⟩⟩

theorem actionAmount_ok {action : Action} (h : HasOpposite action.amountSat) :
    ∃ amount, actionAmount action = .ok amount ∧ -Int64.largest ≤ amount := by
  obtain ⟨hlow, hhigh⟩ := h
  unfold actionAmount
  split
  · refine ⟨0 - action.amountSat, Int64.narrow_of_fits ?_, by omega⟩
    simp only [Int64.Fits, Int64.largest, Int64.smallest] at *
    omega
  · exact ⟨action.amountSat, rfl, hlow⟩

theorem actionValues_ok {row : Row} (h : row.Shown) {action : Action} (hmem : action ∈ row.actions)
    (parent : List Str) : ∃ values, actionValues qt unit row parent action = .ok values := by
  obtain ⟨amount, hamount, hlow⟩ := actionAmount_ok (h.2 action hmem)
  obtain ⟨shown, hshown⟩ := format_ok unit hlow
  exact ⟨_, bind_eq_ok.mpr ⟨amount, hamount, bind_eq_ok.mpr ⟨shown, hshown, rfl⟩⟩⟩

theorem exportRow_ok {row : Row} (h : row.Shown) (stream : Str) : ∃ text, exportRow qt unit stream row = .ok text := by
  obtain ⟨parent, hparent⟩ := rowValues_ok qt unit h
  unfold exportRow
  rw [hparent]
  by_cases hsingle : (row.isPendingRequest || row.actions.length ≤ 1) = true
  · exact ⟨_, if_pos hsingle⟩
  · have hstep : ∀ action ∈ row.actions, ∀ stream : Str, ∃ text, (do
        let values ← actionValues qt unit row parent action
        .ok (writeCsvRow stream values) : Except Int64.Fault Str) = .ok text := by
      intro action hmem stream
      obtain ⟨values, hvalues⟩ := actionValues_ok qt unit h hmem parent
      exact ⟨_, bind_eq_ok.mpr ⟨values, hvalues, rfl⟩⟩
    obtain ⟨text, htext⟩ := foldlM_ok hstep (writeCsvRow stream parent)
    exact ⟨text, (if_neg hsingle).trans htext⟩

theorem exportText_ok {proxy : ActivityFilterProxyModel} (h : ∀ row ∈ proxy.rows, row.Shown) :
    ∃ text, exportText qt proxy = .ok text :=
  foldlM_ok (fun row hrow => exportRow_ok qt _ (h row hrow)) _

/-! ## The file -/

section File

variable {qt} {files : Files} {proxy : ActivityFilterProxyModel} {path filename text : Str}

theorem exportText_table (h : exportText qt proxy = .ok text) :
    ∃ table, Csv.read rfc4180 text = some table ∧
      Table qt (QmlBitcoinUnits.fromDisplayUnit proxy.m_display_unit) proxy.rows table := by
  let titles := header qt (QmlBitcoinUnits.fromDisplayUnit proxy.m_display_unit)
  have hheader : writeCsvRow [] titles = Csv.write rfc4180 [titles] := writeCsvRow_write [] titles
  simp only [exportText] at h
  rw [hheader] at h
  obtain ⟨groups, rfl, hgroups⟩ := foldlM_exportRow h
  have htable : Table qt _ proxy.rows (titles :: groups.flatten) := ⟨groups, rfl, hgroups⟩
  refine ⟨titles :: groups.flatten, Csv.read_write rfc4180 ?_, htable⟩
  intro record hmem hnil
  have hwidth := htable.width record hmem
  rw [hnil] at hwidth
  cases hwidth

theorem exportCsv_written {noError : Bool} :
    exportCsv qt files proxy path = .ok (noError, some (filename, text)) ↔
      filename = normalizedExportPath files path ∧ filename ≠ [] ∧ files.opens filename = true ∧
        exportText qt proxy = .ok text ∧ noError = files.noError filename text := by
  by_cases hname : normalizedExportPath files path = []
  · simp only [exportCsv, hname, List.isEmpty_nil, if_true]
    constructor
    · intro h
      cases h
    · rintro ⟨rfl, hne, -⟩
      exact absurd rfl hne
  by_cases hopens : files.opens (normalizedExportPath files path) = true
  · simp only [exportCsv, List.isEmpty_iff, hname, hopens, Bool.not_true, Bool.false_eq_true, if_false, bind_eq_ok]
    constructor
    · rintro ⟨written, hwritten, h⟩
      obtain ⟨rfl, rfl, rfl⟩ := by simpa using Except.ok.inj h
      exact ⟨rfl, hname, hopens, hwritten, rfl⟩
    · rintro ⟨rfl, -, -, hwritten, rfl⟩
      exact ⟨text, hwritten, rfl⟩
  · simp only [exportCsv, List.isEmpty_iff, hname, Bool.eq_false_iff.mpr hopens, Bool.not_false, if_true, if_false]
    constructor
    · intro h
      cases h
    · rintro ⟨rfl, -, hopen, -⟩
      exact absurd hopen hopens

end File

/-- The file, read as comma-separated values, is the header and then the records of each row, all of one
width. It is written where the path can be, and no amount with an opposite faults. -/
theorem export_reads_back (files : Files) (proxy : ActivityFilterProxyModel) (path : Str) :
    (∀ noError filename text, exportCsv qt files proxy path = .ok (noError, some (filename, text)) →
      ∃ table, Csv.read rfc4180 text = some table ∧
        Table qt (QmlBitcoinUnits.fromDisplayUnit proxy.m_display_unit) proxy.rows table ∧
        ∀ record ∈ table,
          record.length = (header qt (QmlBitcoinUnits.fromDisplayUnit proxy.m_display_unit)).length) ∧
      ((∀ row ∈ proxy.rows, row.Shown) → normalizedExportPath files path ≠ [] →
        files.opens (normalizedExportPath files path) = true →
        ∃ noError text, exportCsv qt files proxy path =
          .ok (noError, some (normalizedExportPath files path, text))) := by
  constructor
  · intro noError filename text h
    obtain ⟨-, -, -, htext, -⟩ := exportCsv_written.mp h
    obtain ⟨table, hread, htable⟩ := exportText_table htext
    exact ⟨table, hread, htable, htable.width⟩
  · intro hshown hname hopens
    obtain ⟨text, htext⟩ := exportText_ok qt hshown
    exact ⟨_, text, exportCsv_written.mpr ⟨rfl, hname, hopens, htext, rfl⟩⟩

example : Csv.read rfc4180 (writeCsvRow [] [guardedCsvText "=1,\"a\"\n".toList, "b".toList]) =
    some [["'=1,\"a\"\n".toList, "b".toList]] := by decide

end GuiQml.Export
