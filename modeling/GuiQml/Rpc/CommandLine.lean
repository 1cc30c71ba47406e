import GuiQml.Lib.Nesting

/-!
# The console's command line parser

`rpccommandexecutor.cpp`. A `std::string` is the list of its bytes, each written as the `Char` with
that code. Univalue, the node's RPC table and Qt's string comparison are the fields of `RpcApi`. A
step that C++ does not define stops the parser with `undefinedBehaviour`.
-/

namespace GuiQml.Rpc

abbrev Str := List Char

def HISTORY_FILTER : List Str :=
  ["signmessagewithprivkey".toList, "signrawtransactionwithkey".toList, "walletpassphrase".toList,
    "walletpassphrasechange".toList, "encryptwallet".toList]

/-- The UTF-8 bytes of `(…)`. -/
def REDACTED : Str := ['(', '\u00e2', '\u0080', '\u00a6', ')']

/-- What the parser calls: `UniValue`, `RPCConvertValues`, `ToIntegral<size_t>` and Qt. -/
structure RpcApi (UniValue Params : Type) where
  null : UniValue
  /-- The string of a value for which `isStr` holds. -/
  getStr : UniValue → Option Str
  write : UniValue → Str
  isArray : UniValue → Bool
  isObject : UniValue → Bool
  elementAt : UniValue → Nat → UniValue
  findValue : UniValue → Str → UniValue
  toIntegral : Str → Option Nat
  convertValues : Str → List Str → Except String Params
  toPercentEncoding : Str → Str
  equalsIgnoringCase : Str → Str → Bool

/-- A call of `executeRpc`. -/
structure RpcCall (Params : Type) where
  method : Str
  params : Params
  uri : Str

/-- How the parser can end other than by returning. -/
inductive Stop
  | runtimeError (what : String)
  | outOfRange
  | assertionFailed
  | undefinedBehaviour
  deriving DecidableEq, Repr

inductive CmdParseState
  | eatingSpaces
  | eatingSpacesInArg
  | eatingSpacesInBrackets
  | argument
  | singleQuoted
  | doubleQuoted
  | escapeOuter
  | escapeDoubleQuoted
  | commandExecuted
  | commandExecutedInner
  deriving DecidableEq, Repr

variable {UniValue Params : Type}

/-- The arguments of `RPCParseCommandLine` besides the command. A node answers the last of the calls
it got so far. -/
structure Settings (UniValue Params : Type) where
  api : RpcApi UniValue Params
  node : List (RpcCall Params) → UniValue
  fExecute : Bool
  wantsFiltered : Bool
  wallet_name : Str

/-- The local variables. The innermost argument list of `stack` comes first. -/
structure Parser (UniValue Params : Type) where
  state : CmdParseState := .eatingSpaces
  stack : List (List Str) := [[]]
  curarg : Str := []
  lastResult : UniValue
  nDepthInsideSensitive : Nat := 0
  filter_begin_pos : Nat := 0
  filter_ranges : List (Nat × Nat) := []
  strResult : Str := []
  calls : List (RpcCall Params) := []

def historyFilterContains (api : RpcApi UniValue Params) (word : Str) : Bool :=
  HISTORY_FILTER.any (api.equalsIgnoringCase word)

def resultText (api : RpcApi UniValue Params) (value : UniValue) : Str :=
  (api.getStr value).getD (api.write value)

namespace Parser

variable (cfg : Settings UniValue Params) (p : Parser UniValue Params)

/-- `add_to_current_stack`. It reads `stack.back()` before it asks whether the stack is empty. -/
def addToCurrentStack (chpos : Nat) (strArg : Str) : Except Stop (Parser UniValue Params) :=
  match p.stack with
  | [] => .error .undefinedBehaviour
  | args :: rest =>
    let p := { p with stack := (args ++ [strArg]) :: rest }
    if args.isEmpty && p.nDepthInsideSensitive = 0 && historyFilterContains cfg.api strArg then
      .ok { p with nDepthInsideSensitive := 1, filter_begin_pos := chpos }
    else .ok p

/-- `stack.pop_back()`. -/
def popBack : Except Stop (Parser UniValue Params) :=
  match p.stack with
  | [] => .error .undefinedBehaviour
  | _ :: rest => .ok { p with stack := rest }

def closeOutParams (chpos : Nat) : Except Stop (Parser UniValue Params) :=
  if p.nDepthInsideSensitive = 0 then p.popBack
  else if p.nDepthInsideSensitive = 1 then
    if p.filter_begin_pos = 0 then .error .assertionFailed
    else { p with
      nDepthInsideSensitive := 0
      filter_ranges := p.filter_ranges ++ [(p.filter_begin_pos, chpos)]
      filter_begin_pos := 0 }.popBack
  else { p with nDepthInsideSensitive := p.nDepthInsideSensitive - 1 }.popBack

/-- The element of the last result that a query in brackets asks for. -/
def queryResult : Except Stop UniValue :=
  if cfg.api.isArray p.lastResult then
    match cfg.api.toIntegral p.curarg with
    | none => .error (.runtimeError "Invalid result query")
    | some index => .ok (cfg.api.elementAt p.lastResult index)
  else if cfg.api.isObject p.lastResult then .ok (cfg.api.findValue p.lastResult p.curarg)
  else .error (.runtimeError "Invalid result query")

/-- A character of a result query, after its opening bracket. -/
def queryChar (ch : Char) : Except Stop (Parser UniValue Params) :=
  if ch ≠ ']' then .ok { p with curarg := p.curarg ++ [ch] }
  else if !p.curarg.isEmpty && cfg.fExecute then
    match queryResult cfg p with
    | .error e => .error e
    | .ok subelement => .ok { p with lastResult := subelement, state := .commandExecuted }
  else .ok { p with state := .commandExecuted }

/-- The end of a command: its result is an argument of the command around it, or the final one. -/
def finishCommand (chpos : Nat) : Except Stop (Parser UniValue Params) :=
  match p.closeOutParams chpos with
  | .error e => .error e
  | .ok p =>
    let curarg := resultText cfg.api p.lastResult
    let p := { p with curarg := [], state := .eatingSpaces }
    if curarg.isEmpty then .ok p
    else if p.stack.isEmpty then .ok { p with strResult := curarg }
    else addToCurrentStack cfg p chpos curarg

/-- Call the node when executing. The command is element 0 of the innermost list. -/
def executeCommand : Except Stop (Parser UniValue Params) :=
  if !cfg.fExecute then .ok { p with state := .commandExecuted, curarg := [] }
  else match p.stack with
  | (method :: strParams) :: _ =>
    match cfg.api.convertValues method strParams with
    | .error what => .error (.runtimeError what)
    | .ok params =>
      let uri := if cfg.wallet_name.isEmpty then []
        else "/wallet/".toList ++ cfg.api.toPercentEncoding cfg.wallet_name
      let calls := p.calls ++ [⟨method, params, uri⟩]
      .ok { p with
        calls := calls
        lastResult := cfg.node calls
        state := .commandExecuted
        curarg := [] }
  | _ => .error .undefinedBehaviour

/-- The argument that a bracket or a line end finishes. After a command name, an opening bracket
starts a nested command. -/
def finishArgument (chpos : Nat) (ch : Char) : Except Stop (Parser UniValue Params) :=
  let nested := ch = '(' && !p.stack.isEmpty && !(p.stack.headD []).isEmpty
  let p := if nested then { p with
      nDepthInsideSensitive :=
        if p.nDepthInsideSensitive = 0 then 0 else p.nDepthInsideSensitive + 1
      stack := [] :: p.stack }
    else p
  if p.stack.isEmpty then .error (.runtimeError "Invalid Syntax")
  else match addToCurrentStack cfg p chpos p.curarg with
  | .error e => .error e
  | .ok p => .ok { p with curarg := [], state := .eatingSpacesInBrackets }

/-- `(`, `)` or the end of a line. -/
def bracketChar (chpos : Nat) (ch : Char) : Except Stop (Parser UniValue Params) :=
  if p.state = .eatingSpacesInArg then .error (.runtimeError "Invalid Syntax")
  else
    match (if p.state = .argument then finishArgument cfg p chpos ch else .ok p) with
    | .error e => .error e
    | .ok p =>
      if (ch = ')' || ch = '\n') && !p.stack.isEmpty then executeCommand cfg p else .ok p

/-- A blank or a comma. -/
def blankChar (chpos : Nat) (ch : Char) : Except Stop (Parser UniValue Params) :=
  if p.state = .eatingSpacesInArg && p.curarg.isEmpty && ch = ',' then
    .error (.runtimeError "Invalid Syntax")
  else if p.state = .argument then
    match addToCurrentStack cfg p chpos p.curarg with
    | .error e => .error e
    | .ok p =>
      .ok { p with
        curarg := []
        state := if ch = ',' then .eatingSpacesInArg else .eatingSpaces }
  else if p.state = .eatingSpacesInBrackets && ch = ',' then
    .ok { p with state := .eatingSpacesInArg }
  else .ok { p with state := .eatingSpaces }

/-- A character outside of quotes and queries. -/
def outerChar (chpos : Nat) (ch : Char) : Except Stop (Parser UniValue Params) :=
  if ch = '"' then .ok { p with state := .doubleQuoted }
  else if ch = '\'' then .ok { p with state := .singleQuoted }
  else if ch = '\\' then .ok { p with state := .escapeOuter }
  else if ch = '(' ∨ ch = ')' ∨ ch = '\n' then bracketChar cfg p chpos ch
  else if ch = ' ' ∨ ch = ',' ∨ ch = '\t' then blankChar cfg p chpos ch
  else .ok { p with curarg := p.curarg ++ [ch], state := .argument }

/-- One round of the loop. -/
def feed (chpos : Nat) (ch : Char) : Except Stop (Parser UniValue Params) :=
  match p.state with
  | .commandExecuted | .commandExecutedInner =>
    if ch = '[' then .ok { p with curarg := [], state := .commandExecutedInner }
    else if p.state = .commandExecutedInner then queryChar cfg p ch
    else match finishCommand cfg p chpos with
      | .error e => .error e
      | .ok p => outerChar cfg p chpos ch
  | .argument | .eatingSpacesInArg | .eatingSpacesInBrackets | .eatingSpaces =>
    outerChar cfg p chpos ch
  | .singleQuoted =>
    if ch = '\'' then .ok { p with state := .argument }
    else .ok { p with curarg := p.curarg ++ [ch] }
  | .doubleQuoted =>
    if ch = '"' then .ok { p with state := .argument }
    else if ch = '\\' then .ok { p with state := .escapeDoubleQuoted }
    else .ok { p with curarg := p.curarg ++ [ch] }
  | .escapeOuter => .ok { p with curarg := p.curarg ++ [ch], state := .argument }
  | .escapeDoubleQuoted =>
    .ok { p with
      curarg := (if ch ≠ '"' ∧ ch ≠ '\\' then p.curarg ++ ['\\'] else p.curarg) ++ [ch]
      state := .doubleQuoted }

/-- The loop, from position `chpos` on. -/
def feedAll (p : Parser UniValue Params) (chpos : Nat) :
    Str → Except Stop (Parser UniValue Params)
  | [] => .ok p
  | ch :: rest =>
    match feed cfg p chpos ch with
    | .error e => .error e
    | .ok p => feedAll p (chpos + 1) rest

/-- `replace` of one range by the mark. It throws where the range starts behind the end. -/
def replaceRange (out : Except Stop Str) (range : Nat × Nat) : Except Stop Str :=
  match out with
  | .error e => .error e
  | .ok out =>
    if out.length < range.1 then .error .outOfRange
    else .ok (Nesting.coverSpan REDACTED out range)

/-- The filtered command, once the ranges are known. The last range is replaced first. -/
def replaceRanges (strCommand : Str) : Except Stop Str :=
  p.filter_ranges.foldr (fun range out => replaceRange out range) (.ok strCommand)

/-- The part under `if (pstrFilteredOut)`. -/
def filterOut (chpos : Nat) (strCommand : Str) :
    Except Stop (Parser UniValue Params × Option Str) :=
  if !cfg.wantsFiltered then .ok (p, none)
  else
    let closed := if p.state = .commandExecuted then
        if p.stack.isEmpty then .error .assertionFailed else p.closeOutParams chpos
      else .ok p
    match closed with
    | .error e => .error e
    | .ok p =>
      match p.replaceRanges strCommand with
      | .error e => .error e
      | .ok filtered => .ok (p, some filtered)

end Parser

/-- What a call of the parser leaves: its result and its two output strings. -/
structure Parsed where
  accepted : Bool
  strResult : Str
  filtered : Option Str
  deriving DecidableEq, Repr

def terminated (strCommand : Str) : Str :=
  if strCommand.getLast? = some '\n' then strCommand else strCommand ++ ['\n']

def RPCParseCommandLine (cfg : Settings UniValue Params) (strCommand : Str) :
    Except Stop Parsed :=
  -- back() of an empty string
  if strCommand.isEmpty then .error .undefinedBehaviour
  else match Parser.feedAll cfg { lastResult := cfg.api.null } 0 (terminated strCommand) with
  | .error e => .error e
  | .ok p =>
    match Parser.filterOut cfg p (terminated strCommand).length strCommand with
    | .error e => .error e
    | .ok (p, filtered) =>
      match p.state with
      | .commandExecuted => .ok ⟨true, resultText cfg.api p.lastResult, filtered⟩
      | .argument | .eatingSpaces => .ok ⟨true, p.strResult, filtered⟩
      | _ => .ok ⟨false, p.strResult, filtered⟩

end GuiQml.Rpc
