import GuiQml.Amount.Shown
import GuiQml.Lib.PercentEncoding
import GuiQml.Receive.Reconciliation

/-!
# Payment URIs

`ReceiveRequestHistoryModel::BuildBitcoinUri` and `BitcoinUri::Parse`. The URL classes of Qt, `ParseMoney`
and the check of an address are parameters.
-/

namespace GuiQml.Receive.Uri

open GuiQml.Amount PercentEncoding Decimal

/-! ## What Qt and Core do -/

structure QUrl where
  scheme : Str
  path : Str
  /-- Empty where there is none. -/
  query : Str

structure UriApi where
  toPercentEncoding : Str → Str
  /-- No value where the URL is not valid. -/
  url : Str → Option QUrl
  /-- The fully decoded items of a query. -/
  queryItems : Str → List (Str × Str)
  parseMoney : Str → Option Int
  /-- `IsValidDestination` of what `DecodeDestination` makes of the text. -/
  isValidAddress : Str → Bool

/-! ## Texts -/

def bitcoin : Str := ['b', 'i', 't', 'c', 'o', 'i', 'n']
def amountKey : Str := ['a', 'm', 'o', 'u', 'n', 't']
def labelKey : Str := ['l', 'a', 'b', 'e', 'l']
def messageKey : Str := ['m', 'e', 's', 's', 'a', 'g', 'e']
def requiredPrefix : Str := ['r', 'e', 'q', '-']

section Functions

variable (api : UriApi)

/-! ## Writing -/

def formatAmountBtc (amount_sats : Int) : Except Int64.Fault Str :=
  if amount_sats ≤ 0 then .ok [] else QmlBitcoinUnits.format .btc amount_sats false .never

/-- The parameters that are there. -/
def uriParams (amount_sats : Int) (amount_str label message : Str) : List Str :=
  (if 0 < amount_sats && !amount_str.isEmpty then [amountKey ++ '=' :: amount_str] else []) ++
    ((if !label.isEmpty then [labelKey ++ '=' :: api.toPercentEncoding label] else []) ++
      if !message.isEmpty then [messageKey ++ '=' :: api.toPercentEncoding message] else [])

def buildBitcoinUri (address : Str) (amount_sats : Int) (label message : Str) :
    Except Int64.Fault Str := do
  if address.isEmpty then
    return []
  let params := uriParams api amount_sats (← formatAmountBtc amount_sats) label message
  return bitcoin ++ ':' :: address ++
    if params.isEmpty then [] else '?' :: List.intercalate ['&'] params

/-! ## Reading -/

structure BitcoinUriParseResult where
  success : Bool := false
  error : String := ""
  address : Str := []
  amount_sats : Int := 0
  has_amount : Bool := false
  label : Str := []
  has_label : Bool := false
  message : Str := []
  has_message : Bool := false
  deriving DecidableEq

def buildError (message : String) : BitcoinUriParseResult := { error := message }

/-- The body of the loop over the items. -/
def parseItem (result : BitcoinUriParseResult) (item : Str × Str) : Except String BitcoinUriParseResult :=
  let required := requiredPrefix.isPrefixOf item.1
  let key := if required then item.1.drop 4 else item.1
  let value := item.2
  if key = labelKey then .ok { result with label := value, has_label := true }
  else if key = messageKey then .ok { result with message := value, has_message := true }
  else if key = amountKey then
    if (trimmed value).isEmpty then .ok result
    else match api.parseMoney value with
      | none => .error "Invalid Bitcoin amount."
      | some amount_sats => .ok { result with amount_sats, has_amount := true }
  else if required then .error ("Unsupported required parameter: " ++ String.ofList key)
  else .ok result

def parse (uri_text : Str) : BitcoinUriParseResult :=
  let raw := trimmed uri_text
  if raw.isEmpty then buildError "Enter a Bitcoin payment URI."
  else if (raw.take 10).map Char.toLower = bitcoin ++ [':', '/', '/'] then
    buildError "'bitcoin://' is not a valid URI. Use 'bitcoin:' instead."
  else match api.url raw with
    | none => buildError "Not a valid Bitcoin payment URI."
    | some uri =>
      if uri.scheme ≠ bitcoin then buildError "Not a valid Bitcoin payment URI."
      else
        let address := if uri.path.getLast? = some '/' then uri.path.dropLast else uri.path
        if !api.isValidAddress address then buildError "Not a valid Bitcoin address."
        else match (api.queryItems uri.query).foldlM (parseItem api) { address } with
          | .error error => buildError error
          | .ok result => { result with success := true }

end Functions

/-! ## What is relied on -/

/-- A character of a query, besides the escaped ones. -/
def isQueryChar (c : Char) : Bool := isUnreserved c || c == '=' || c == '&'

/-- `toPercentEncoding` leaves the unreserved characters alone and escapes the others, and the value of an
item is decoded. A query is split at each `&`, and an item at its first `=`. A URL of a scheme, a path and
a query is valid, with these parts. `ParseMoney` reads an amount of bitcoin with eight places. -/
structure UriApi.Lawful (api : UriApi) : Prop where
  encoded : ∀ text, Encoded isUnreserved (api.toPercentEncoding text)
  unreserved : ∀ text, (∀ c ∈ text, isUnreserved c = true) → api.toPercentEncoding text = text
  items_nil : api.queryItems [] = []
  items_one : ∀ key value, (∀ c ∈ key, isUnreserved c = true) →
    api.queryItems (key ++ '=' :: api.toPercentEncoding value) = [(key, value)]
  items_more : ∀ item rest, Encoded isQueryChar item → '&' ∉ item → item ≠ [] →
    Encoded isQueryChar rest → rest ≠ [] →
    api.queryItems (item ++ '&' :: rest) = api.queryItems item ++ api.queryItems rest
  url : ∀ path, path ≠ [] → (∀ c ∈ path, c.isAlphanum = true) →
    api.url (bitcoin ++ ':' :: path) = some ⟨bitcoin, path, []⟩
  url_query : ∀ path query, path ≠ [] → (∀ c ∈ path, c.isAlphanum = true) → Encoded isQueryChar query →
    api.url (bitcoin ++ ':' :: path ++ '?' :: query) = some ⟨bitcoin, path, query⟩
  money : ∀ whole fraction, whole ≠ [] → Digits whole → whole.length ≤ 10 → Digits fraction →
    fraction.length = 8 → (value whole * 100000000 + value fraction : Int) ≤ MAX_MONEY →
    api.parseMoney (whole ++ '.' :: fraction) = some (value whole * 100000000 + value fraction : Int)

/-- An address as Core writes it, with letters and digits only. -/
structure ValidAddress (api : UriApi) (address : Str) : Prop where
  nonempty : address ≠ []
  alphanum : ∀ c ∈ address, c.isAlphanum = true
  valid : api.isValidAddress address = true

/-! ## Items -/

section Items

variable {api : UriApi} (hapi : api.Lawful)

/-- A parameter as it is written. -/
def writeItem (api : UriApi) (item : Str × Str) : Str := item.1 ++ '=' :: api.toPercentEncoding item.2

def PlainKey (key : Str) : Prop := key ≠ [] ∧ ∀ c ∈ key, isUnreserved c = true

theorem ne_ampersand {c : Char} (h : isUnreserved c = true) : c ≠ '&' := by
  rintro rfl
  revert h
  decide

include hapi

theorem encoded_writeItem {item : Str × Str} (hkey : PlainKey item.1) :
    Encoded isQueryChar (writeItem api item) := by
  have hquery : ∀ c, isUnreserved c = true → isQueryChar c = true := fun c h => by simp [isQueryChar, h]
  apply Encoded.append
  · exact Encoded.of_forall fun c hc => hquery c (hkey.2 c hc)
  · exact .cons rfl ((hapi.encoded item.2).mono hquery)

theorem ampersand_not_mem_writeItem {item : Str × Str} (hkey : PlainKey item.1) :
    '&' ∉ writeItem api item := by
  intro hmem
  simp only [writeItem, List.mem_append, List.mem_cons] at hmem
  rcases hmem with hmem | heq | hmem
  · exact ne_ampersand (hkey.2 _ hmem) rfl
  · exact absurd heq (by decide)
  · rcases (hapi.encoded item.2).mem hmem with h | h | h
    · exact ne_ampersand h rfl
    · exact absurd h (by decide)
    · exact ne_ampersand h rfl

theorem queryItems_join {items : List (Str × Str)} (hkeys : ∀ item ∈ items, PlainKey item.1) :
    Encoded isQueryChar (List.intercalate ['&'] (items.map (writeItem api))) ∧
      api.queryItems (List.intercalate ['&'] (items.map (writeItem api))) = items := by
  induction items with
  | nil => exact ⟨.nil, hapi.items_nil⟩
  | cons item items ih =>
    simp only [List.forall_mem_cons] at hkeys
    have hitem := encoded_writeItem hapi hkeys.1
    have hone := hapi.items_one item.1 item.2 hkeys.1.2
    cases items with
    | nil => exact ⟨by simpa [List.intercalate] using hitem, by simpa [List.intercalate, writeItem] using hone⟩
    | cons next items =>
      obtain ⟨hencoded, hitems⟩ := ih hkeys.2
      have hjoin : List.intercalate ['&'] ((item :: next :: items).map (writeItem api)) =
          writeItem api item ++ '&' :: List.intercalate ['&'] ((next :: items).map (writeItem api)) := by
        simp [List.intercalate]
      have hrest : List.intercalate ['&'] ((next :: items).map (writeItem api)) ≠ [] := by
        cases items <;> simp [List.intercalate, writeItem]
      rw [hjoin]
      constructor
      · exact hitem.append (.cons rfl hencoded)
      · rw [hapi.items_more _ _ hitem (ampersand_not_mem_writeItem hapi hkeys.1)
          (by simp [writeItem]) hencoded hrest, hitems]
        exact congrArg (· ++ next :: items) hone

end Items

/-! ## The written URI -/

section Written

variable {api : UriApi} {address label message : Str} {amount_sats : Int}

/-- The amount as it is written. -/
def amountText (amount_sats : Int) : Str :=
  shownWhole .btc amount_sats ++ '.' :: shownFraction .btc amount_sats

def itemIf (present : Bool) (key value : Str) : List (Str × Str) := if present then [(key, value)] else []

/-- The items of a URI. -/
def itemsOf (amount_sats : Int) (label message : Str) : List (Str × Str) :=
  itemIf (decide (0 < amount_sats)) amountKey (amountText amount_sats) ++
    (itemIf (!label.isEmpty) labelKey label ++ itemIf (!message.isEmpty) messageKey message)

theorem plainKey_itemIf {present : Bool} {key value : Str} (hkey : PlainKey key) :
    ∀ item ∈ itemIf present key value, PlainKey item.1 := by
  unfold itemIf
  cases present <;> simp [hkey]

theorem plainKey_itemsOf : ∀ item ∈ itemsOf amount_sats label message, PlainKey item.1 := by
  simp only [itemsOf, List.forall_mem_append]
  refine ⟨?_, ?_, ?_⟩
  · exact plainKey_itemIf ⟨by decide, List.all_eq_true.mp (by decide)⟩
  · exact plainKey_itemIf ⟨by decide, List.all_eq_true.mp (by decide)⟩
  · exact plainKey_itemIf ⟨by decide, List.all_eq_true.mp (by decide)⟩

theorem unreserved_amountText : ∀ c ∈ amountText amount_sats, isUnreserved c = true := by
  have hdigit : ∀ c : Char, c.isDigit = true → isUnreserved c = true := by
    intro c hc
    simp [isUnreserved, Char.isAlphanum, hc]
  intro c hc
  simp only [amountText, List.mem_append, List.mem_cons] at hc
  rcases hc with hc | rfl | hc
  · exact hdigit c (shownWhole_digits c hc)
  · rfl
  · exact hdigit c (shownFraction_digits c hc)

theorem formatAmountBtc_eq (h : 0 < amount_sats) : formatAmountBtc amount_sats = .ok (amountText amount_sats) := by
  unfold formatAmountBtc
  rw [if_neg (by omega)]
  exact format_never (by omega) .btc

theorem uriParams_eq (hapi : api.Lawful) {amount_str : Str}
    (hamount : 0 < amount_sats → amount_str = amountText amount_sats) :
    uriParams api amount_sats amount_str label message =
      (itemsOf amount_sats label message).map (writeItem api) := by
  have hplain := hapi.unreserved (amountText amount_sats) unreserved_amountText
  have hfirst : (if 0 < amount_sats && !amount_str.isEmpty then [amountKey ++ '=' :: amount_str] else []) =
      (itemIf (decide (0 < amount_sats)) amountKey (amountText amount_sats)).map (writeItem api) := by
    unfold itemIf
    by_cases hpos : 0 < amount_sats
    · have hnonempty : (amountText amount_sats).isEmpty = false := by simp [amountText]
      simp [hamount hpos, hpos, hnonempty, writeItem, hplain]
    · simp [hpos]
  have hrest : ∀ key text : Str, (if !text.isEmpty then [key ++ '=' :: api.toPercentEncoding text] else []) =
      (itemIf (!text.isEmpty) key text).map (writeItem api) := by
    intro key text
    unfold itemIf
    cases text.isEmpty <;> rfl
  unfold uriParams itemsOf
  rw [hfirst, hrest, hrest, List.map_append, List.map_append]

theorem buildBitcoinUri_eq (hapi : api.Lawful) (haddress : address ≠ []) :
    buildBitcoinUri api address amount_sats label message =
      .ok (bitcoin ++ ':' :: address ++
        if (itemsOf amount_sats label message).isEmpty then []
        else '?' :: List.intercalate ['&'] ((itemsOf amount_sats label message).map (writeItem api))) := by
  have hformat : ∃ amount_str, formatAmountBtc amount_sats = .ok amount_str ∧
      (0 < amount_sats → amount_str = amountText amount_sats) := by
    by_cases hpos : 0 < amount_sats
    · exact ⟨_, formatAmountBtc_eq hpos, fun _ => rfl⟩
    · exact ⟨[], if_pos (by omega), fun h => absurd h hpos⟩
  obtain ⟨amount_str, hok, hamount⟩ := hformat
  unfold buildBitcoinUri
  rw [hok, ← List.isEmpty_map (f := writeItem api), ← uriParams_eq hapi hamount]
  simp [haddress]

end Written

/-! ## The URI as it is read -/

section Read

variable {api : UriApi} {address label message rest : Str} {amount_sats : Int}
  {result : BitcoinUriParseResult}

theorem isSpace_of_printable {c : Char} (hlow : 33 ≤ c.toNat) (hhigh : c.toNat < 127) : isSpace c = false := by
  simp [isSpace]
  omega

theorem unreserved_of_alphanum {c : Char} (h : c.isAlphanum = true) : isUnreserved c = true := by
  simp [isUnreserved, h]

theorem isSpace_of_unreserved {c : Char} (h : isUnreserved c = true) : isSpace c = false := by
  have hbounds := bounds_of_isUnreserved h
  exact isSpace_of_printable (by omega) hbounds.2

theorem isSpace_of_query {query : Str} (h : Encoded isQueryChar query) : ∀ c ∈ query, isSpace c = false := by
  intro c hc
  rcases h.mem hc with hquery | rfl | hunreserved
  · simp only [isQueryChar, Bool.or_eq_true, beq_iff_eq] at hquery
    rcases hquery with (hunreserved | rfl) | rfl
    · exact isSpace_of_unreserved hunreserved
    · rfl
    · rfl
  · rfl
  · exact isSpace_of_unreserved hunreserved

theorem toLower_ne_slash {c : Char} (h : c.isAlphanum = true) : c.toLower ≠ '/' := by
  have hascii : ∀ n < 128, (Char.ofNat n).isAlphanum = true → (Char.ofNat n).toLower ≠ '/' := by decide
  have hbounds := bounds_of_isUnreserved (unreserved_of_alphanum h)
  have hc := hascii c.toNat (by omega)
  rw [Char.ofNat_toNat] at hc
  exact hc h

theorem not_doubleSlash (haddress : ValidAddress api address) :
    ((bitcoin ++ ':' :: address ++ rest).take 10).map Char.toLower ≠ bitcoin ++ [':', '/', '/'] := by
  obtain ⟨c, address', rfl⟩ := List.exists_cons_of_ne_nil haddress.nonempty
  intro heq
  have hninth := congrArg (·[8]?) heq
  simp [bitcoin] at hninth
  exact toLower_ne_slash (haddress.alphanum c (by simp)) hninth

theorem getLast_ne_slash (haddress : ValidAddress api address) : address.getLast? ≠ some '/' := by
  intro heq
  have hslash := haddress.alphanum '/' (List.mem_of_getLast? heq)
  revert hslash
  decide

/-- What is read of a URL with the parts it was written from. -/
theorem parse_written {query : Str} (haddress : ValidAddress api address)
    (hspace : ∀ c ∈ rest, isSpace c = false)
    (hurl : api.url (bitcoin ++ ':' :: address ++ rest) = some ⟨bitcoin, address, query⟩)
    (hitems : (api.queryItems query).foldlM (parseItem api) { address } = .ok result) :
    parse api (bitcoin ++ ':' :: address ++ rest) = { result with success := true } := by
  have htrimmed : trimmed (bitcoin ++ ':' :: address ++ rest) = bitcoin ++ ':' :: address ++ rest := by
    apply trimmed_eq_self
    simp only [List.forall_mem_append, List.forall_mem_cons]
    refine ⟨⟨?_, by decide, ?_⟩, hspace⟩
    · exact fun c hc => isSpace_of_unreserved (List.all_eq_true.mp (by decide) c hc)
    · exact fun c hc => isSpace_of_unreserved (unreserved_of_alphanum (haddress.alphanum c hc))
  unfold parse
  simp only [htrimmed, not_doubleSlash haddress, if_false, hurl, getLast_ne_slash haddress, haddress.valid,
    hitems]
  simp [bitcoin]

/-! ## One item after the other -/

theorem foldlM_itemIf {present : Bool} {key value : Str} :
    (itemIf present key value).foldlM (parseItem api) result =
      if present then parseItem api result (key, value) else .ok result := by
  unfold itemIf
  cases present with
  | true => simp [List.foldlM_cons, List.foldlM_nil]
  | false => rfl

theorem parse_label (hlabel : result.label = []) (hnone : result.has_label = false) :
    (itemIf (!label.isEmpty) labelKey label).foldlM (parseItem api) result =
      .ok { result with label := label, has_label := !label.isEmpty } := by
  obtain ⟨_, _, _, _, _, _, _, _, _⟩ := result
  dsimp only at hlabel hnone
  subst hlabel hnone
  rw [foldlM_itemIf]
  cases label with
  | nil => rfl
  | cons c label => rfl

theorem parse_message (hmessage : result.message = []) (hnone : result.has_message = false) :
    (itemIf (!message.isEmpty) messageKey message).foldlM (parseItem api) result =
      .ok { result with message := message, has_message := !message.isEmpty } := by
  obtain ⟨_, _, _, _, _, _, _, _, _⟩ := result
  dsimp only at hmessage hnone
  subst hmessage hnone
  rw [foldlM_itemIf]
  cases message with
  | nil => rfl
  | cons c message => rfl

theorem parseMoney_amountText (hapi : api.Lawful) (hlow : 0 ≤ amount_sats) (hhigh : amount_sats ≤ MAX_MONEY) :
    api.parseMoney (amountText amount_sats) = some amount_sats := by
  have hwhole : (value (shownWhole .btc amount_sats) : Int) = amount_sats / 100000000 :=
    value_shownWhole hlow
  have hfraction : (value (shownFraction .btc amount_sats) : Int) = amount_sats % 100000000 :=
    value_shownFraction
  have hsum : (value (shownWhole .btc amount_sats) * 100000000 +
      value (shownFraction .btc amount_sats) : Int) = amount_sats := by
    omega
  have hshort : (shownWhole .btc amount_sats).length ≤ 10 := by
    apply length_toDigits_le (by omega)
    change (amount_sats / 100000000).toNat < 10 ^ 10
    simp only [MAX_MONEY] at hhigh
    omega
  have hread := hapi.money (shownWhole .btc amount_sats) (shownFraction .btc amount_sats)
    Nat.toDigits_ne_nil shownWhole_digits hshort shownFraction_digits
    (length_shownFraction (by decide)) (by omega)
  rwa [hsum] at hread

theorem parse_amount (hapi : api.Lawful) (hlow : 0 ≤ amount_sats) (hhigh : amount_sats ≤ MAX_MONEY)
    (hamount : result.amount_sats = 0) (hnone : result.has_amount = false) :
    (itemIf (decide (0 < amount_sats)) amountKey (amountText amount_sats)).foldlM (parseItem api) result =
      .ok { result with amount_sats := amount_sats, has_amount := decide (0 < amount_sats) } := by
  rw [foldlM_itemIf]
  by_cases hpos : 0 < amount_sats
  · have hblank : (trimmed (amountText amount_sats)).isEmpty = false := shown_not_blank _
    have hitem : parseItem api result (amountKey, amountText amount_sats) =
        if (trimmed (amountText amount_sats)).isEmpty then .ok result
        else match api.parseMoney (amountText amount_sats) with
          | none => .error "Invalid Bitcoin amount."
          | some amount_sats => .ok { result with amount_sats, has_amount := true } := rfl
    rw [hitem, hblank, parseMoney_amountText hapi hlow hhigh]
    simp [hpos]
  · obtain rfl : amount_sats = 0 := by omega
    simp [← hamount, ← hnone]

theorem parse_itemsOf (hapi : api.Lawful) (hlow : 0 ≤ amount_sats) (hhigh : amount_sats ≤ MAX_MONEY) :
    (itemsOf amount_sats label message).foldlM (parseItem api) { address } =
      .ok { address, amount_sats, has_amount := decide (0 < amount_sats), label,
            has_label := !label.isEmpty, message, has_message := !message.isEmpty } := by
  unfold itemsOf
  rw [List.foldlM_append, parse_amount hapi hlow hhigh rfl rfl]
  change (itemIf _ labelKey label ++ itemIf _ messageKey message).foldlM (parseItem api) _ = _
  rw [List.foldlM_append, parse_label rfl rfl]
  exact parse_message rfl rfl

/-- What was written is read back. -/
theorem parse_buildBitcoinUri (hapi : api.Lawful) (haddress : ValidAddress api address)
    (hlow : 0 ≤ amount_sats) (hhigh : amount_sats ≤ MAX_MONEY) (label message : Str) :
    ∃ uri, buildBitcoinUri api address amount_sats label message = .ok uri ∧ parse api uri =
      { success := true, address, amount_sats, has_amount := decide (0 < amount_sats), label,
        has_label := !label.isEmpty, message, has_message := !message.isEmpty } := by
  have hplain : ∀ item ∈ itemsOf amount_sats label message, PlainKey item.1 := plainKey_itemsOf
  obtain ⟨hencoded, hitems⟩ := queryItems_join hapi hplain
  have hparsed : (itemsOf amount_sats label message).foldlM (parseItem api) { address } = _ :=
    parse_itemsOf hapi hlow hhigh
  refine ⟨_, buildBitcoinUri_eq hapi haddress.nonempty, ?_⟩
  by_cases hnone : (itemsOf amount_sats label message).isEmpty = true
  · rw [if_pos hnone]
    rw [List.isEmpty_iff] at hnone
    have hurl : api.url (bitcoin ++ ':' :: address ++ []) = some ⟨bitcoin, address, []⟩ := by
      rw [List.append_nil]
      exact hapi.url address haddress.nonempty haddress.alphanum
    have hnoitems : api.queryItems [] = itemsOf amount_sats label message := hapi.items_nil.trans hnone.symm
    rw [← hnoitems] at hparsed
    have hread := parse_written haddress (by simp) hurl hparsed
    exact hread
  · rw [if_neg hnone]
    have hspace : ∀ c ∈ '?' :: List.intercalate ['&']
        ((itemsOf amount_sats label message).map (writeItem api)), isSpace c = false := by
      simp only [List.forall_mem_cons]
      exact ⟨rfl, isSpace_of_query hencoded⟩
    have hurl := hapi.url_query address _ haddress.nonempty haddress.alphanum hencoded
    rw [← hitems] at hparsed
    have hread := parse_written haddress hspace hurl hparsed
    exact hread

end Read

/-! ## Functions with these laws -/

namespace Qt

/-- The parts before and behind the first of a character. -/
def splitFirst (c : Char) (text : Str) : Str × Str :=
  (text.takeWhile (· ≠ c), (text.dropWhile (· ≠ c)).drop 1)

theorem splitFirst_append {c : Char} {front : Str} (h : c ∉ front) (back : Str) :
    splitFirst c (front ++ c :: back) = (front, back) := by
  unfold splitFirst
  rw [List.takeWhile_append_of_pos (ne_of_not_mem h), List.dropWhile_append_of_pos (ne_of_not_mem h)]
  simp

theorem splitFirst_of_not_mem {c : Char} {text : Str} (h : c ∉ text) : splitFirst c text = (text, []) := by
  unfold splitFirst
  rw [List.takeWhile_eq_self_iff.mpr (ne_of_not_mem h), List.dropWhile_eq_nil_iff.mpr (ne_of_not_mem h)]
  rfl

def readItem (item : Str) : Str × Str :=
  (decode (splitFirst '=' item).1, decode (splitFirst '=' item).2)

def queryItems (query : Str) : List (Str × Str) :=
  if query.isEmpty then [] else (query.splitOn '&').map readItem

def url (raw : Str) : Option QUrl :=
  let (scheme, rest) := splitFirst ':' raw
  let (path, query) := splitFirst '?' rest
  if scheme.isEmpty then none else some ⟨scheme.map Char.toLower, path, query⟩

/-- At most ten digits, and at most eight behind a point. -/
def parseMoney (text : Str) : Option Int :=
  let (whole, fraction) := splitFirst '.' text
  let n : Int := value whole * 100000000 + value (toPlaces 8 fraction)
  if Digits whole ∧ Digits fraction ∧ whole.length ≤ 10 ∧ fraction.length ≤ 8 ∧ n ≤ MAX_MONEY then some n
  else none

def receiver : Str :=
  ['b', 'c', '1', 'q', 'a', 'r', '0', 's', 'r', 'r', 'r', '7', 'x', 'f',
   'k', 'v', 'y', '5', 'l', '6', '4', '3', 'l', 'y', 'd', 'n', 'w', '9',
   'r', 'e', '5', '9', 'g', 't', 'z', 'z', 'w', 'f', '5', 'm', 'd', 'q']

def api : UriApi where
  toPercentEncoding := encode
  url := url
  queryItems := queryItems
  parseMoney := parseMoney
  isValidAddress address := address = receiver

theorem not_mem_of_alphanum {path : Str} (h : ∀ c ∈ path, c.isAlphanum = true) {c : Char}
    (hc : c.isAlphanum = false) : c ∉ path := by
  intro hmem
  rw [h c hmem] at hc
  cases hc

theorem decode_of_unreserved {text : Str} (h : ∀ c ∈ text, isUnreserved c = true) : decode text = text := by
  have hdecode := decode_encode text
  rwa [encode_of_unreserved h] at hdecode

theorem readItem_eq {key value : Str} (hkey : ∀ c ∈ key, isUnreserved c = true) :
    readItem (key ++ '=' :: encode value) = (key, value) := by
  have hnot : '=' ∉ key := fun hmem => absurd (hkey '=' hmem) (by decide)
  unfold readItem
  rw [splitFirst_append hnot, decode_of_unreserved hkey, decode_encode]

theorem ampersand_not_mem_encode (text : Str) : '&' ∉ encode text := by
  intro hmem
  rcases (encoded_encode text).mem hmem with h | h | h
  · exact ne_ampersand h rfl
  · exact absurd h (by decide)
  · exact ne_ampersand h rfl

theorem api_lawful : api.Lawful where
  encoded := encoded_encode
  unreserved _ h := encode_of_unreserved h
  items_nil := rfl
  items_one key value hkey := by
    have hnot : '&' ∉ key ++ '=' :: encode value := by
      simp only [List.mem_append, List.mem_cons]
      rintro (hmem | heq | hmem)
      · exact ne_ampersand (hkey _ hmem) rfl
      · exact absurd heq (by decide)
      · exact ampersand_not_mem_encode value hmem
    change queryItems (key ++ '=' :: encode value) = _
    unfold queryItems
    rw [if_neg (by simp), List.splitOn_eq_singleton hnot, List.map_singleton, readItem_eq hkey]
  items_more item rest _ hnot hitem _ hrest := by
    change queryItems (item ++ '&' :: rest) = queryItems item ++ queryItems rest
    unfold queryItems
    rw [if_neg (by simp), if_neg (by simpa using hitem), if_neg (by simpa using hrest),
      List.splitOn_append_cons_self_of_not_mem hnot, List.splitOn_eq_singleton hnot]
    rfl
  url path _ hpath := by
    change url (bitcoin ++ ':' :: path) = _
    unfold url
    rw [splitFirst_append (by decide)]
    dsimp only
    rw [splitFirst_of_not_mem (not_mem_of_alphanum hpath (by decide))]
    rfl
  url_query path query _ hpath _ := by
    change url (bitcoin ++ ':' :: path ++ '?' :: query) = _
    unfold url
    rw [List.append_assoc, List.cons_append, splitFirst_append (by decide)]
    dsimp only
    rw [splitFirst_append (not_mem_of_alphanum hpath (by decide))]
    rfl
  money whole fraction _ hwhole hshort hfraction hplaces hmoney := by
    have hpadded : toPlaces 8 fraction = fraction := by
      rw [toPlaces_of_le hplaces.le, hplaces]
      simp
    change parseMoney (whole ++ '.' :: fraction) = _
    unfold parseMoney
    rw [splitFirst_append (Digits.not_point hwhole)]
    simp only [hpadded, hwhole, hfraction, hshort, hplaces, hmoney, le_refl, and_self, if_true]

/-- A label with separators and a blank message come back, without an amount. -/
theorem parse_buildBitcoinUri_separators :
    ∃ uri, buildBitcoinUri api receiver 0 ['1', '&', '2', '=', '5', '0', '%', ' '] [' '] = .ok uri ∧
      parse api uri =
        { success := true, address := receiver, label := ['1', '&', '2', '=', '5', '0', '%', ' '],
          has_label := true, message := [' '], has_message := true } :=
  parse_buildBitcoinUri api_lawful ⟨by decide, List.all_eq_true.mp (by decide), by decide⟩ (by decide)
    (by decide) _ _

end Qt

end GuiQml.Receive.Uri
