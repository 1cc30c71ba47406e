import Mathlib.Data.List.Basic

/-!
# Comma-separated values

Records of cells as text, in the form of RFC 4180. A quoted cell may hold separators and line ends, a quote
in it is doubled, and a newline ends a record. A dialect names the three characters.
-/

namespace Csv

structure Dialect (α : Type*) where
  quote : α
  separator : α
  newline : α
  separator_ne_quote : separator ≠ quote
  newline_ne_quote : newline ≠ quote
  newline_ne_separator : newline ≠ separator

attribute [simp] Dialect.separator_ne_quote Dialect.newline_ne_quote Dialect.newline_ne_separator

variable {α : Type*} [DecidableEq α] (d : Dialect α)

/-! ## Writing -/

/-- Every quote is doubled. -/
def escape (value : List α) : List α := value.flatMap fun c => if c = d.quote then [c, c] else [c]

def writeCell (value : List α) : List α := d.quote :: (escape d value ++ [d.quote])

/-- A separator stands in front of each further cell. -/
def writeRest (values : List (List α)) : List α := values.flatMap fun value => d.separator :: writeCell d value

def writeRecord : List (List α) → List α
  | [] => [d.newline]
  | value :: values => writeCell d value ++ writeRest d values ++ [d.newline]

def write (records : List (List (List α))) : List α := records.flatMap (writeRecord d)

/-! ## Reading -/

/-- Where the reader stands in a cell. -/
inductive Place
  /-- before its first character -/
  | start
  /-- in a cell without quotes -/
  | plain
  /-- behind the opening quote -/
  | quoted
  /-- behind a quote that closes the cell, unless a second one follows -/
  | closed
  deriving DecidableEq, Repr

structure Reader (α : Type*) where
  place : Place := .start
  cell : List α := []
  record : List (List α) := []
  records : List (List (List α)) := []

namespace Reader

variable (r : Reader α)

def endCell : Reader α := { r with place := .start, cell := [], record := r.record ++ [r.cell] }

def endRecord : Reader α :=
  { r with place := .start, cell := [], record := [], records := r.records ++ [r.record ++ [r.cell]] }

def take (place : Place) (c : α) : Reader α := { r with place := place, cell := r.cell ++ [c] }

/-- The end of a cell or of a record, if the character is one. -/
def ends (c : α) : Option (Reader α) :=
  if c = d.separator then some r.endCell else if c = d.newline then some r.endRecord else none

/-- One more character. A quote inside a cell without quotes and text behind a closing quote are refused. -/
def step (c : α) : Option (Reader α) :=
  match r.place with
  | .start => if c = d.quote then some { r with place := .quoted } else (r.ends d c).or (some (r.take .plain c))
  | .plain => if c = d.quote then none else (r.ends d c).or (some (r.take .plain c))
  | .quoted => if c = d.quote then some { r with place := .closed } else some (r.take .quoted c)
  | .closed => if c = d.quote then some (r.take .quoted c) else r.ends d c

end Reader

/-- The records of a text that ends with the newline of its last record. -/
def read (text : List α) : Option (List (List (List α))) :=
  (text.foldlM (Reader.step d) {}).bind fun r =>
    if r.place = .start ∧ r.record = [] then some r.records else none

/-! ## What is written is read back -/

@[simp] theorem escape_nil : escape d [] = [] := rfl

theorem escape_cons (c : α) (value : List α) :
    escape d (c :: value) = (if c = d.quote then [c, c] else [c]) ++ escape d value := rfl

theorem foldlM_escape (value cell : List α) (record : List (List α)) (records : List (List (List α))) :
    (escape d value).foldlM (Reader.step d) ⟨.quoted, cell, record, records⟩ =
      some ⟨.quoted, cell ++ value, record, records⟩ := by
  induction value generalizing cell with
  | nil => simp
  | cons c value ih =>
    rw [escape_cons, List.foldlM_append]
    by_cases hc : c = d.quote
    · simp [hc, Reader.step, Reader.take, ih]
    · simp [hc, Reader.step, Reader.take, ih]

/-- A written cell brings the reader behind its closing quote. -/
theorem foldlM_writeCell (value : List α) (record : List (List α)) (records : List (List (List α))) :
    (writeCell d value).foldlM (Reader.step d) ⟨.start, [], record, records⟩ =
      some ⟨.closed, value, record, records⟩ := by
  rw [writeCell, List.foldlM_cons]
  simp only [Reader.step, if_true, Option.bind_eq_bind, Option.bind_some]
  rw [List.foldlM_append, foldlM_escape]
  simp [Reader.step]

theorem foldlM_writeRest (values : List (List α)) (cell : List α) (record : List (List α))
    (records : List (List (List α))) :
    (writeRest d values ++ [d.newline]).foldlM (Reader.step d) ⟨.closed, cell, record, records⟩ =
      some ⟨.start, [], [], records ++ [record ++ cell :: values]⟩ := by
  induction values generalizing cell record with
  | nil => simp [writeRest, Reader.step, Reader.ends, Reader.endRecord]
  | cons value values ih =>
    have hrest : writeRest d (value :: values) ++ [d.newline] =
        d.separator :: (writeCell d value ++ (writeRest d values ++ [d.newline])) := by
      simp [writeRest]
    rw [hrest, List.foldlM_cons]
    simp only [Reader.step, d.separator_ne_quote, if_false, Reader.ends, if_true, Option.bind_eq_bind,
      Option.bind_some, Reader.endCell]
    rw [List.foldlM_append, foldlM_writeCell, Option.bind_eq_bind, Option.bind_some, ih]
    simp

theorem foldlM_writeRecord {values : List (List α)} (h : values ≠ []) (records : List (List (List α))) :
    (writeRecord d values).foldlM (Reader.step d) ⟨.start, [], [], records⟩ =
      some ⟨.start, [], [], records ++ [values]⟩ := by
  cases values with
  | nil => exact absurd rfl h
  | cons value values =>
    rw [writeRecord, List.append_assoc, List.foldlM_append, foldlM_writeCell, Option.bind_eq_bind,
      Option.bind_some, foldlM_writeRest]
    rfl

theorem foldlM_write {written : List (List (List α))} (h : ∀ values ∈ written, values ≠ [])
    (records : List (List (List α))) :
    (write d written).foldlM (Reader.step d) ⟨.start, [], [], records⟩ =
      some ⟨.start, [], [], records ++ written⟩ := by
  induction written generalizing records with
  | nil => simp [write]
  | cons values written ih =>
    have hcons : write d (values :: written) = writeRecord d values ++ write d written := rfl
    rw [hcons, List.foldlM_append, foldlM_writeRecord d (h values (by simp)), Option.bind_eq_bind,
      Option.bind_some, ih fun values' hmem => h values' (by simp [hmem])]
    simp

/-- Records with at least one cell are read back, whatever their cells hold. -/
theorem read_write {written : List (List (List α))} (h : ∀ values ∈ written, values ≠ []) :
    read d (write d written) = some written := by
  simp [read, foldlM_write d h]

end Csv
