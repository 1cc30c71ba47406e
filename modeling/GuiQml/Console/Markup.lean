import GuiQml.Lib.Html

/-!
# How the console writes a reply

`FormatJsonReply` and `EscapeAndConvertWhitespace` of `rpcconsolemodel.cpp`. A `QString` is the list of its
characters, and what a function appends to `out` is what it returns here.
-/

namespace GuiQml.Console

open Html

abbrev QString := List Char

def isNumberChar (c : Char) : Bool := c.isDigit || c == '+' || c == '-' || c == '.' || c == 'e' || c == 'E'

/-- The text of a number, as `UniValue` reads it. -/
abbrev NumberText := { text : QString // text.all isNumberChar = true }

/-- The keys of an object are as many as its values. -/
inductive UniValue
  | null
  | bool (b : Bool)
  | num (text : NumberText)
  | str (text : QString)
  | arr (values : List UniValue)
  | obj (keys : List QString) (values : List UniValue)

/-- The name of a colour: its six hexadecimal digits. -/
structure QColor where
  digits : Vector (Fin 16) 6

def QColor.name (color : QColor) : QString := '#' :: color.digits.toList.map fun d => d.val.digitChar

/-! ## Text -/

/-- The loop of `EscapeAndConvertWhitespace` over the escaped text. -/
def convertWhitespace : Bool → List Char → QString
  | _, [] => []
  | at_line_start, c :: escaped =>
    if c = '\n' then "<br>".toList ++ convertWhitespace true escaped
    else if c = ' ' && at_line_start then "&nbsp;".toList ++ convertWhitespace at_line_start escaped
    else c :: convertWhitespace (if c ≠ ' ' then false else at_line_start) escaped

def EscapeAndConvertWhitespace (text : QString) : QString := convertWhitespace true (escape text)

/-! ## Values -/

def AppendIndent (depth : Nat) : QString := (List.replicate (depth * 2) "&nbsp;".toList).flatten

def keyTag (key_color : QColor) : List Char := "span style='color:".toList ++ key_color.name ++ ['\'']

mutual

def AppendValue (key_color : QColor) (depth : Nat) : UniValue → QString
  | .obj keys values =>
    if keys.isEmpty then "{}".toList
    else '{' :: "<br>".toList ++ AppendFields key_color depth keys values ++ AppendIndent depth ++ ['}']
  | .arr values =>
    if values.isEmpty then "[]".toList
    else '[' :: "<br>".toList ++ AppendItems key_color depth values ++ AppendIndent depth ++ [']']
  | .str text => '"' :: escape text ++ ['"']
  | .num text => text.val
  | .bool b => if b then "true".toList else "false".toList
  | .null => "null".toList

/-- The loop of `AppendObject`. -/
def AppendFields (key_color : QColor) (depth : Nat) : List QString → List UniValue → QString
  | key :: keys, value :: values =>
    AppendIndent (depth + 1) ++ ('<' :: keyTag key_color ++ ['>']) ++ '"' :: escape key ++ "\"</span>: ".toList ++
      AppendValue key_color (depth + 1) value ++ (if keys.isEmpty then [] else [',']) ++ "<br>".toList ++
      AppendFields key_color depth keys values
  | _, _ => []

/-- The loop of `AppendArray`. -/
def AppendItems (key_color : QColor) (depth : Nat) : List UniValue → QString
  | [] => []
  | value :: values =>
    AppendIndent (depth + 1) ++ AppendValue key_color (depth + 1) value ++ (if values.isEmpty then [] else [',']) ++
      "<br>".toList ++ AppendItems key_color depth values

end

/-- `read` is `UniValue::read`. -/
def FormatJsonReply (read : QString → Option UniValue) (raw : QString) (key_color : QColor) : QString :=
  match read raw with
  | some (.obj keys values) => AppendValue key_color 0 (.obj keys values)
  | some (.arr values) => AppendValue key_color 0 (.arr values)
  | _ => EscapeAndConvertWhitespace raw

/-! ## What is shown -/

/-- A space that does not break is shown as a space. -/
def shownChar (c : Char) : Char := if c = nbsp then ' ' else c

def shownToken : Token → List Char
  | .text c => [shownChar c]
  | .tag inner => if inner = ['b', 'r'] then ['\n'] else []

/-- The text that the tokens show. -/
def shown (tokens : List Token) : List Char := tokens.flatMap shownToken

/-- The tags break lines, or stand around the text of a key. -/
inductive Marked (key_color : QColor) : List Token → Prop
  | nil : Marked key_color []
  | text {tokens : List Token} (c : Char) (h : Marked key_color tokens) : Marked key_color (.text c :: tokens)
  | br {tokens : List Token} (h : Marked key_color tokens) : Marked key_color (.tag ['b', 'r'] :: tokens)
  | key {tokens : List Token} (text : List Char) (h : Marked key_color tokens) :
    Marked key_color (.tag (keyTag key_color) :: text.map .text ++ .tag "/span".toList :: tokens)

/-- The markup is read to its end, shows the text and holds no other tags. -/
def Renders (key_color : QColor) (html text : List Char) : Prop :=
  ∃ tokens, Reads html tokens ∧ shown tokens = text ∧ Marked key_color tokens

/-! ### The plain text of a value -/

def indent (depth : Nat) : List Char := List.replicate (depth * 2) ' '

mutual

/-- A value on indented lines, each string and each key as it is shown. -/
def plain (depth : Nat) : UniValue → List Char
  | .obj keys values =>
    if keys.isEmpty then "{}".toList else ['{', '\n'] ++ plainFields depth keys values ++ indent depth ++ ['}']
  | .arr values =>
    if values.isEmpty then "[]".toList else ['[', '\n'] ++ plainItems depth values ++ indent depth ++ [']']
  | .str text => '"' :: text.map shownChar ++ ['"']
  | .num text => text.val
  | .bool b => if b then "true".toList else "false".toList
  | .null => "null".toList

def plainFields (depth : Nat) : List QString → List UniValue → List Char
  | key :: keys, value :: values =>
    indent (depth + 1) ++ '"' :: key.map shownChar ++ "\": ".toList ++ plain (depth + 1) value ++
      (if keys.isEmpty then [] else [',']) ++ ['\n'] ++ plainFields depth keys values
  | _, _ => []

def plainItems (depth : Nat) : List UniValue → List Char
  | [] => []
  | value :: values =>
    indent (depth + 1) ++ plain (depth + 1) value ++ (if values.isEmpty then [] else [',']) ++ ['\n'] ++
      plainItems depth values

end

end GuiQml.Console
