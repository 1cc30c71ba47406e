import GuiQml.Lib.Codec
import Mathlib.Algebra.Group.Int.Defs

/-!
# Stored receive requests

`SerializeEntry` and `DeserializeEntries`: a record in the format of bitcoin-qt, then a private note and a
flag where they are needed. What Core writes for a number or a string, and what Qt makes of a date, are
parameters.
-/

namespace GuiQml.Receive.Blobs

/-! ## What Core and Qt do -/

abbrev StdString := List UInt8

/-- Core's serialization of the types of the fields. A string may be too long to be read. -/
structure Serialization where
  int32 : Codec Int32
  int64 : Codec Int64
  uint32 : Codec UInt32
  string : Codec StdString
  bool : Codec Bool
  valid_int32 : ∀ n, int32.Valid n
  valid_int64 : ∀ n, int64.Valid n
  valid_uint32 : ∀ n, uint32.Valid n
  valid_bool : ∀ b, bool.Valid b

structure DateTimeApi (QDateTime : Type) where
  toSecsSinceEpoch : QDateTime → Int
  fromSecsSinceEpoch : Int → QDateTime
  toSecs_fromSecs : ∀ n, 0 ≤ n → n < 2 ^ 32 → toSecsSinceEpoch (fromSecsSinceEpoch n) = n

/-- `static_cast<unsigned int>`. -/
def toUnsigned (n : Int) : UInt32 := UInt32.ofNat (n % 2 ^ 32).toNat

/-! ## Entries -/

structure QmlReceiveRequestRecipient where
  nVersion : Int32 := 1
  address : StdString := []
  label : StdString := []
  amount : Int64 := 0
  message : StdString := []
  sPaymentRequest : StdString := []
  authenticatedMerchant : StdString := []
  noteSelf : StdString := []

structure QmlRecentRequestEntry (QDateTime : Type) where
  nVersion : Int32 := 1
  id : Int64 := 0
  date : QDateTime
  recipient : QmlReceiveRequestRecipient := {}
  payment_received : Bool := false

section Functions

variable {QDateTime : Type} (core : Serialization) (dates : DateTimeApi QDateTime)

def QmlReceiveRequestRecipient.serialize (obj : QmlReceiveRequestRecipient) : List UInt8 :=
  core.int32.write obj.nVersion ++ (core.string.write obj.address ++ (core.string.write obj.label ++
    (core.int64.write obj.amount ++ (core.string.write obj.message ++
      (core.string.write obj.sPaymentRequest ++ core.string.write obj.authenticatedMerchant)))))

def QmlReceiveRequestRecipient.unserialize : Reader QmlReceiveRequestRecipient := do
  let nVersion ← core.int32.read
  let address ← core.string.read
  let label ← core.string.read
  let amount ← core.int64.read
  let message ← core.string.read
  let sPaymentRequest ← core.string.read
  let authenticatedMerchant ← core.string.read
  return { nVersion, address, label, amount, message, sPaymentRequest, authenticatedMerchant }

/-- What bitcoin-qt writes and reads. -/
def QmlRecentRequestEntry.serialize (obj : QmlRecentRequestEntry QDateTime) : List UInt8 :=
  core.int32.write obj.nVersion ++ (core.int64.write obj.id ++
    (core.uint32.write (toUnsigned (dates.toSecsSinceEpoch obj.date)) ++ obj.recipient.serialize core))

def QmlRecentRequestEntry.unserialize : Reader (QmlRecentRequestEntry QDateTime) := do
  let nVersion ← core.int32.read
  let id ← core.int64.read
  let date_timet ← core.uint32.read
  let recipient ← QmlReceiveRequestRecipient.unserialize core
  return { nVersion, id, date := dates.fromSecsSinceEpoch date_timet.toNat, recipient }

/-- The note and the flag of QML, where the blob goes on. What follows the flag is left unread. -/
def readExtension (entry : QmlRecentRequestEntry QDateTime) : Reader (QmlRecentRequestEntry QDateTime) := do
  if (← get).isEmpty then
    return entry
  let noteSelf ← core.string.read
  let entry := { entry with recipient := { entry.recipient with noteSelf } }
  if (← get).isEmpty then
    return entry
  let payment_received ← core.bool.read
  return { entry with payment_received }

/-- The body of the loop of `DeserializeEntries`. -/
def readEntry : Reader (QmlRecentRequestEntry QDateTime) := do
  let entry ← QmlRecentRequestEntry.unserialize core dates
  readExtension core entry

def deserializeEntries (blobs : List (List UInt8)) : List (QmlRecentRequestEntry QDateTime) :=
  blobs.foldl (fun out blob =>
    match readEntry core dates blob with
    | none => out
    | some (entry, _) => out ++ [entry]) []

/-- What follows the record of bitcoin-qt. -/
def extension (entry : QmlRecentRequestEntry QDateTime) : List UInt8 :=
  if !entry.recipient.noteSelf.isEmpty || entry.payment_received then
    core.string.write entry.recipient.noteSelf ++
      if entry.payment_received then core.bool.write entry.payment_received else []
  else []

def serializeEntry (entry : QmlRecentRequestEntry QDateTime) : List UInt8 :=
  entry.serialize core dates ++ extension core entry

end Functions

/-! ## Round trips -/

section RoundTrip

variable {QDateTime : Type} {core : Serialization} {dates : DateTimeApi QDateTime}
  {entry decoded : QmlRecentRequestEntry QDateTime}

/-- The strings can be read, and the seconds fit in 32 bits. -/
structure InLimits (core : Serialization) (dates : DateTimeApi QDateTime)
    (entry : QmlRecentRequestEntry QDateTime) : Prop where
  date : 0 ≤ dates.toSecsSinceEpoch entry.date ∧ dates.toSecsSinceEpoch entry.date < 2 ^ 32
  address : core.string.Valid entry.recipient.address
  label : core.string.Valid entry.recipient.label
  message : core.string.Valid entry.recipient.message
  sPaymentRequest : core.string.Valid entry.recipient.sPaymentRequest
  authenticatedMerchant : core.string.Valid entry.recipient.authenticatedMerchant
  noteSelf : core.string.Valid entry.recipient.noteSelf

/-- Equal in every field, the date to the second. -/
structure SameEntry (dates : DateTimeApi QDateTime) (entry decoded : QmlRecentRequestEntry QDateTime) :
    Prop where
  nVersion : decoded.nVersion = entry.nVersion
  id : decoded.id = entry.id
  date : dates.toSecsSinceEpoch decoded.date = dates.toSecsSinceEpoch entry.date
  recipient : decoded.recipient = entry.recipient
  payment_received : decoded.payment_received = entry.payment_received

/-- The entry without the two fields that bitcoin-qt does not know. -/
def withoutExtension (entry : QmlRecentRequestEntry QDateTime) : QmlRecentRequestEntry QDateTime :=
  { entry with recipient := { entry.recipient with noteSelf := [] }, payment_received := false }

theorem toNat_toUnsigned {n : Int} (hlow : 0 ≤ n) (hhigh : n < 2 ^ 32) : ((toUnsigned n).toNat : Int) = n := by
  unfold toUnsigned
  rw [UInt32.toNat_ofNat']
  omega

theorem unserialize_recipient (h : InLimits core dates entry) (rest : List UInt8) :
    QmlReceiveRequestRecipient.unserialize core (entry.recipient.serialize core ++ rest) =
      some ({ entry.recipient with noteSelf := [] }, rest) := by
  unfold QmlReceiveRequestRecipient.unserialize QmlReceiveRequestRecipient.serialize
  simp only [List.append_assoc]
  rw [core.int32.read_bind (core.valid_int32 _), core.string.read_bind h.address,
    core.string.read_bind h.label, core.int64.read_bind (core.valid_int64 _),
    core.string.read_bind h.message, core.string.read_bind h.sPaymentRequest,
    core.string.read_bind h.authenticatedMerchant]
  rfl

/-- An entry as its record is read: the date to the second, and nothing of the extension. -/
def recordOf (dates : DateTimeApi QDateTime) (entry : QmlRecentRequestEntry QDateTime) :
    QmlRecentRequestEntry QDateTime :=
  { withoutExtension entry with date := dates.fromSecsSinceEpoch (dates.toSecsSinceEpoch entry.date) }

/-- The reader of bitcoin-qt takes the record from the front, whatever follows. -/
theorem unserialize_serialize (h : InLimits core dates entry) (rest : List UInt8) :
    QmlRecentRequestEntry.unserialize core dates (entry.serialize core dates ++ rest) =
      some (recordOf dates entry, rest) := by
  unfold QmlRecentRequestEntry.unserialize QmlRecentRequestEntry.serialize
  simp only [List.append_assoc]
  rw [core.int32.read_bind (core.valid_int32 _), core.int64.read_bind (core.valid_int64 _),
    core.uint32.read_bind (core.valid_uint32 _), Reader.bind_eq (unserialize_recipient h rest),
    toNat_toUnsigned h.date.1 h.date.2]
  rfl

theorem readExtension_nil : readExtension core entry [] = some (entry, []) := rfl

theorem readExtension_append {bytes : List UInt8} (hbytes : bytes.isEmpty = false) :
    readExtension core entry bytes =
      (do
        let noteSelf ← core.string.read
        let entry := { entry with recipient := { entry.recipient with noteSelf } }
        if (← get).isEmpty then
          return entry
        let payment_received ← core.bool.read
        return { entry with payment_received } : Reader (QmlRecentRequestEntry QDateTime)) bytes := by
  unfold readExtension
  change (if bytes.isEmpty = true then pure entry else _ : Reader _) bytes = _
  rw [hbytes]
  rfl

theorem readExtension_note {note : StdString} (hnote : core.string.Valid note) (flag : Option Bool) :
    readExtension core entry (core.string.write note ++ (flag.map core.bool.write).getD []) =
      some ({ entry with
        recipient := { entry.recipient with noteSelf := note }
        payment_received := flag.getD entry.payment_received }, []) := by
  rw [readExtension_append (core.string.isEmpty_write_append _ _), core.string.read_bind hnote]
  cases flag with
  | none => rfl
  | some flag =>
    have hflag := core.bool.isEmpty_write_append flag []
    rw [List.append_nil] at hflag
    change (if (core.bool.write flag).isEmpty = true then _ else _ : Reader _) (core.bool.write flag) = _
    rw [hflag]
    have hread := core.bool.read_write flag (core.valid_bool flag) []
    rw [List.append_nil] at hread
    exact Reader.bind_eq hread _

theorem readExtension_extension (h : InLimits core dates entry) :
    readExtension core (recordOf dates entry) (extension core entry) =
      some ({ entry with date := dates.fromSecsSinceEpoch (dates.toSecsSinceEpoch entry.date) }, []) := by
  obtain ⟨nVersion, id, date, recipient, payment_received⟩ := entry
  unfold extension
  split
  · cases payment_received with
    | true => exact readExtension_note h.noteSelf (some true)
    | false => exact readExtension_note h.noteSelf none
  · rename_i hnothing
    simp only [Bool.or_eq_true, Bool.not_eq_true', not_or, Bool.not_eq_false, Bool.not_eq_true,
      List.isEmpty_iff] at hnothing
    obtain ⟨hnote, rfl⟩ := hnothing
    rw [readExtension_nil, recordOf, withoutExtension, ← hnote]

theorem readEntry_record (h : InLimits core dates entry) :
    readEntry core dates (entry.serialize core dates) = some (recordOf dates entry, []) := by
  have hread := unserialize_serialize h []
  rw [List.append_nil] at hread
  exact (Reader.bind_eq hread _).trans readExtension_nil

theorem readEntry_serializeEntry (h : InLimits core dates entry) :
    readEntry core dates (serializeEntry core dates entry) =
      some ({ entry with date := dates.fromSecsSinceEpoch (dates.toSecsSinceEpoch entry.date) }, []) :=
  (Reader.bind_eq (unserialize_serialize h _) _).trans (readExtension_extension h)

theorem deserializeEntries_eq (blobs : List (List UInt8)) :
    deserializeEntries core dates blobs =
      blobs.filterMap fun blob => (readEntry core dates blob).map Prod.fst := by
  have hfold : ∀ out, blobs.foldl (fun out blob =>
      match readEntry core dates blob with
      | none => out
      | some (entry, _) => out ++ [entry]) out =
        out ++ blobs.filterMap fun blob => (readEntry core dates blob).map Prod.fst := by
    induction blobs with
    | nil => simp
    | cons blob blobs ih =>
      intro out
      rw [List.foldl_cons, ih, List.filterMap_cons]
      cases readEntry core dates blob with
      | none => rfl
      | some read => simp
  exact hfold []

theorem deserializeEntries_single {blob : List UInt8} {rest : List UInt8}
    (h : readEntry core dates blob = some (decoded, rest)) :
    deserializeEntries core dates [blob] = [decoded] := by
  rw [deserializeEntries_eq, List.filterMap_cons, h]
  rfl

theorem toSecs_recordOf (h : InLimits core dates entry) :
    dates.toSecsSinceEpoch (dates.fromSecsSinceEpoch (dates.toSecsSinceEpoch entry.date)) =
      dates.toSecsSinceEpoch entry.date :=
  dates.toSecs_fromSecs _ h.date.1 h.date.2

/-- An entry comes back from its blob, and without the extension from its record. The record is at the front
of the blob and does not tell the extension. A malformed blob is skipped, and nothing else. -/
theorem stored_requests_round_trip (core : Serialization) (dates : DateTimeApi QDateTime) :
    (∀ entry, InLimits core dates entry → ∃ decoded,
      deserializeEntries core dates [serializeEntry core dates entry] = [decoded] ∧
        SameEntry dates entry decoded) ∧
    (∀ entry, InLimits core dates entry → ∃ decoded,
      deserializeEntries core dates [entry.serialize core dates] = [decoded] ∧
        SameEntry dates (withoutExtension entry) decoded) ∧
    (∀ entry, entry.serialize core dates <+: serializeEntry core dates entry) ∧
    (∀ entry entry', withoutExtension entry = withoutExtension entry' →
      entry.serialize core dates = entry'.serialize core dates) ∧
    ∀ before blob after, readEntry core dates blob = none →
      deserializeEntries core dates (before ++ blob :: after) =
        deserializeEntries core dates before ++ deserializeEntries core dates after := by
  refine ⟨?_, ?_, ?_, ?_, ?_⟩
  · intro entry h
    refine ⟨_, deserializeEntries_single (readEntry_serializeEntry h), ?_⟩
    exact ⟨rfl, rfl, toSecs_recordOf h, rfl, rfl⟩
  · intro entry h
    refine ⟨_, deserializeEntries_single (readEntry_record h), ?_⟩
    exact ⟨rfl, rfl, toSecs_recordOf h, rfl, rfl⟩
  · intro entry
    exact List.prefix_append _ _
  · intro entry entry' h
    have hserialize : ∀ e : QmlRecentRequestEntry QDateTime,
        e.serialize core dates = (withoutExtension e).serialize core dates := fun _ => rfl
    rw [hserialize entry, h, ← hserialize entry']
  · intro before blob after h
    simp only [deserializeEntries_eq, List.filterMap_append, List.filterMap_cons, h, Option.map_none]

end RoundTrip

/-! ## The formats of Core -/

namespace Core

def MAX_SIZE : Nat := 0x02000000

/-- The size of a string, in as few bytes as can be. -/
def writeCompactSize (n : Nat) : List UInt8 :=
  if n < 253 then Codec.toBytes 1 n
  else if n ≤ 0xffff then 253 :: Codec.toBytes 2 n
  else if n ≤ 0xffffffff then 254 :: Codec.toBytes 4 n
  else 255 :: Codec.toBytes 8 n

/-- A number that fewer bytes could tell is refused. -/
def readAtLeast (width least : Nat) : Reader Nat := do
  let n ← Codec.readNat width
  if n < least then failure else return n

/-- The size after its first byte. -/
def readSize (first : Nat) : Reader Nat :=
  if first = 253 then readAtLeast 2 253
  else if first = 254 then readAtLeast 4 0x10000
  else if first = 255 then readAtLeast 8 0x100000000
  else return first

def checkSize (size : Nat) : Reader Nat := if MAX_SIZE < size then failure else return size

def readCompactSize : Reader Nat := do checkSize (← readSize (← Codec.readNat 1))

theorem readAtLeast_toBytes {width least n : Nat} (hleast : least ≤ n) (hn : n < 256 ^ width)
    (rest : List UInt8) : readAtLeast width least (Codec.toBytes width n ++ rest) = some (n, rest) := by
  unfold readAtLeast
  rw [Reader.bind_eq (Codec.readNat_toBytes hn rest), if_neg (by omega)]
  rfl

theorem readNat_mark (mark : UInt8) (bytes rest : List UInt8) :
    Codec.readNat 1 (mark :: bytes ++ rest) = some (mark.toNat, bytes ++ rest) := by
  have htake : Codec.take 1 (mark :: bytes ++ rest) = some ([mark], bytes ++ rest) :=
    Codec.take_append (show [mark].length = 1 from rfl) (bytes ++ rest)
  exact Reader.bind_eq htake _

theorem readCompactSize_write {n : Nat} (h : n ≤ MAX_SIZE) (rest : List UInt8) :
    readCompactSize (writeCompactSize n ++ rest) = some (n, rest) := by
  have hsize : n ≤ 33554432 := h
  have hcheck : checkSize n rest = some (n, rest) := by
    unfold checkSize
    rw [if_neg (by omega)]
    rfl
  unfold readCompactSize writeCompactSize
  split
  · have hfirst : readSize n rest = some (n, rest) := by
      unfold readSize
      rw [if_neg (by omega), if_neg (by omega), if_neg (by omega)]
      rfl
    rw [Reader.bind_eq (Codec.readNat_toBytes (by omega) rest), Reader.bind_eq hfirst, hcheck]
  split
  · rw [Reader.bind_eq (readNat_mark 253 _ rest)]
    exact (Reader.bind_eq (readAtLeast_toBytes (by omega) (by omega) rest) _).trans hcheck
  split
  · rw [Reader.bind_eq (readNat_mark 254 _ rest)]
    exact (Reader.bind_eq (readAtLeast_toBytes (by omega) (by omega) rest) _).trans hcheck
  · omega

def compactSize : Codec Nat where
  write := writeCompactSize
  read := readCompactSize
  Valid n := n ≤ MAX_SIZE
  nonempty n := by
    unfold writeCompactSize
    split
    · simp [Codec.toBytes]
    split
    · simp
    split <;> simp
  read_write _ h rest := readCompactSize_write h rest

def serialization : Serialization where
  int32 := .fixed 4 (by decide) (fun n => n.toBitVec.toNat) (fun n => .ofBitVec (.ofNat 32 n))
    (fun n => n.toBitVec.isLt) (fun n => by simp)
  int64 := .fixed 8 (by decide) (fun n => n.toBitVec.toNat) (fun n => .ofBitVec (.ofNat 64 n))
    (fun n => n.toBitVec.isLt) (fun n => by simp)
  uint32 := .fixed 4 (by decide) UInt32.toNat UInt32.ofNat (fun n => n.toNat_lt) (fun n => by simp)
  string := .counted compactSize
  bool := .fixed 1 (by decide) Bool.toNat (· ≠ 0) (by decide) (by decide)
  valid_int32 _ := trivial
  valid_int64 _ := trivial
  valid_uint32 _ := trivial
  valid_bool _ := trivial

/-- A date as its milliseconds. -/
def dates : DateTimeApi Int where
  toSecsSinceEpoch msecs := msecs / 1000
  fromSecsSinceEpoch secs := secs * 1000
  toSecs_fromSecs n _ _ := by omega

/-- A paid request without a note. -/
def paidEntry : QmlRecentRequestEntry Int where
  id := 5
  date := 1700000000500
  recipient := { address := [98, 99, 49], amount := 1000 }
  payment_received := true

theorem paidEntry_inLimits : InLimits serialization dates paidEntry := by
  have hshort : ∀ s : StdString, s.length ≤ 3 → serialization.string.Valid s := by
    intro s hs
    change s.length ≤ 33554432
    omega
  constructor
  · decide
  all_goals exact hshort _ (by decide)

/-- The flag of a request without a note comes back, after an empty note. -/
theorem stored_requests_round_trip_paid : ∃ decoded,
    deserializeEntries serialization dates [serializeEntry serialization dates paidEntry] = [decoded] ∧
      SameEntry dates paidEntry decoded :=
  (stored_requests_round_trip serialization dates).1 paidEntry paidEntry_inLimits

end Core

end GuiQml.Receive.Blobs
