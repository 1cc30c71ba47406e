import GuiQml.Activity.Interpret
import GuiQml.Wallet.SendAll

/-!
# The flow of a transaction

`transactionflow.cpp`: the inputs and the outputs that the diagram of a transaction draws.
-/

namespace GuiQml.Flow

open Interpret (WalletTx)
open Wallet (CAmount MAX_MONEY Script Transaction TxIn TxOut)

abbrev Bytes := List UInt8

/-- Core's functions of transactions and scripts, and Qt's of texts. -/
structure FlowApi where
  isCoinBase : Transaction → Bool
  isUnspendable : Script → Bool
  /-- Empty where the script has no destination. -/
  address : Script → String
  /-- The opcode at the front of a script, the bytes it pushes and what follows. -/
  getOp : Script → Option (Nat × Bytes × Script)
  fromUtf8 : Bytes → String
  toUtf8 : String → Bytes
  isPrint : Char → Bool
  toHex : Bytes → String
  txidText : Nat → String
  virtualSize : Transaction → Int
  signalsOptInRBF : Transaction → Bool
  serializeSize : Transaction → Int
  weight : Transaction → Int

inductive Kind
  | data | output | outputGroup | input | coinbase | fee
  deriving DecidableEq, Repr, Inhabited

inductive Ownership
  | wallet | external | unknown | fee
  deriving DecidableEq, Repr, Inhabited

/-- What is read from the script of a data output. -/
structure DataOutput where
  scriptHex : String
  dataHex : Option String := none
  dataText : Option String := none
  deriving DecidableEq, Repr

structure Entry where
  id : String
  index : Option Int := none
  kind : Kind
  amountSat : Option CAmount
  amountKnown : Bool
  address : String
  ownership : Ownership
  isChange : Option Bool := none
  outputCount : Option Nat := none
  previousTxid : Option String := none
  previousOutputIndex : Option Nat := none
  data : Option DataOutput := none
  deriving DecidableEq, Repr, Inhabited

structure TransactionFlow where
  inputs : List Entry
  outputs : List Entry
  inputCount : Nat
  outputCount : Nat
  totalInputKnown : Bool
  totalInputSat : Option CAmount
  totalOutputSat : CAmount
  feeKnown : Bool
  feeSat : Option CAmount
  coinbase : Bool
  complete : Bool
  virtualSize : Int
  signalsRbf : Bool
  size : Int
  weight : Int
  version : Nat
  lockTime : Nat
  deriving DecidableEq, Repr

def moneyRange (value : CAmount) : Bool := 0 ≤ value && value ≤ MAX_MONEY

section Build

variable {Destination : Type} (api : FlowApi) (wtx : WalletTx Destination) (tx : Transaction)

/-! ## Data outputs -/

def OP_RETURN : UInt8 := 0x6a

def OP_PUSHDATA4 : Nat := 0x4e

/-- The pushed bytes of the rest of a script. An opcode is at least one byte. -/
def pushes : (bytes_left : Nat) → Script → Option (List Bytes)
  | _, [] => some []
  | 0, _ => none
  | bytes_left + 1, script => do
    let (opcode, bytes, rest) ← api.getOp script
    if OP_PUSHDATA4 < opcode then none
    else
      let more ← pushes bytes_left rest
      some (bytes :: more)

def isReadable (payload : Bytes) : Bool :=
  let text := api.fromUtf8 payload
  api.toUtf8 text = payload &&
    text.toList.all fun c => api.isPrint c || c = '\n' || c = '\r' || c = '\t'

/-- A script with other opcodes, or with an incomplete push, is kept as it is. -/
def dataOutput : Script → Option DataOutput
  | [] => none
  | opcode :: rest =>
    if opcode ≠ OP_RETURN then none
    else match pushes api rest.length rest with
    | none => some { scriptHex := api.toHex (opcode :: rest) }
    | some payloads => some {
        scriptHex := api.toHex (opcode :: rest)
        dataHex := " ".intercalate (payloads.map api.toHex)
        dataText :=
          if payloads.all (isReadable api) then some ("\n".intercalate (payloads.map api.fromUtf8))
          else none }

/-! ## Outputs -/

/-- One output, with what the wallet says of it. -/
structure Output where
  index : Nat
  out : TxOut
  mine : Bool
  change : Bool

def outputs : List Output :=
  (tx.vout.zip (wtx.txout_is_mine.zip wtx.txout_is_change)).zipIdx.map
    fun ((out, mine, change), index) => ⟨index, out, mine, change⟩

def outputEntry (o : Output) : Entry where
  id := s!"output:{o.index}"
  index := some o.index
  kind := if api.isUnspendable o.out.scriptPubKey then .data else .output
  amountSat := some o.out.nValue
  amountKnown := true
  address := api.address o.out.scriptPubKey
  ownership := if o.mine then .wallet else .external
  isChange := some o.change
  data := dataOutput api o.out.scriptPubKey

def outputGroup (non_wallet_outputs : Nat) (grouped_amount : CAmount) : Entry where
  id := "non-wallet-outputs"
  kind := .outputGroup
  amountSat := some grouped_amount
  amountKnown := true
  address := ""
  ownership := .external
  outputCount := some non_wallet_outputs

structure OutputLoop where
  outputs : List Entry := []
  total_output : CAmount := 0
  grouped_amount : CAmount := 0
  group_index : Option Nat := none

/-- One output. The first that is grouped makes room for the group. -/
def outputStep (group_outputs : Bool) (s : OutputLoop) (o : Output) : Option OutputLoop :=
  if !moneyRange o.out.nValue || !moneyRange (s.total_output + o.out.nValue) then none
  else
    let s := { s with total_output := s.total_output + o.out.nValue }
    if group_outputs && !o.mine then
      let s := { s with grouped_amount := s.grouped_amount + o.out.nValue }
      if s.group_index.isNone then
        some { s with group_index := some s.outputs.length, outputs := s.outputs ++ [default] }
      else some s
    else some { s with outputs := s.outputs ++ [outputEntry api o] }

def groupOutputs (collapse_outputs : Bool) : Bool :=
  collapse_outputs && 10 < tx.vout.length && 1 < wtx.txout_is_mine.count false

/-- The entries of the outputs, and their total. -/
def outputEntries (collapse_outputs : Bool) : Option (List Entry × CAmount) := do
  let s ← (outputs wtx tx).foldlM (outputStep api (groupOutputs wtx tx collapse_outputs)) {}
  let entries := match s.group_index with
    | some group_index =>
      s.outputs.set group_index (outputGroup (wtx.txout_is_mine.count false) s.grouped_amount)
    | none => s.outputs
  some (entries, s.total_output)

/-! ## Inputs -/

/-- One input, with what is known of the output that it spends. -/
structure Input where
  index : Nat
  input : TxIn
  mine : Bool
  prevout : Option TxOut

def inputs (prevouts : List (Option TxOut)) : List Input :=
  (tx.vin.zip wtx.txin_is_mine).zipIdx.map
    fun ((input, mine), index) => ⟨index, input, mine, (prevouts[index]?).join⟩

/-- The previous output, where it counts as known. -/
def Input.known (i : Input) : Option TxOut := i.prevout.filter fun out => moneyRange out.nValue

def inputEntry (i : Input) : Entry where
  id := s!"input:{i.index}"
  index := some i.index
  kind := .input
  previousTxid := some (api.txidText i.input.prevout.hash)
  previousOutputIndex := some i.input.prevout.n
  amountSat := i.known.map (·.nValue)
  amountKnown := i.known.isSome
  address := (i.known.map fun out => api.address out.scriptPubKey).getD ""
  ownership := if i.mine then .wallet else .external

def coinbaseEntry (total_output : CAmount) : Entry where
  id := "coinbase"
  index := some (-1)
  kind := .coinbase
  amountSat := some total_output
  amountKnown := true
  address := ""
  ownership := .unknown

structure InputLoop where
  inputs : List Entry := []
  total_input : CAmount := 0
  inputs_known : Bool

def inputStep (s : InputLoop) (i : Input) : Option InputLoop :=
  match i.known with
  | some out =>
    if !moneyRange (s.total_input + out.nValue) then none
    else some { s with
      total_input := s.total_input + out.nValue
      inputs := s.inputs ++ [inputEntry api i] }
  | none => some { s with inputs_known := false, inputs := s.inputs ++ [inputEntry api i] }

/-- A coinbase has a synthetic source, not a spendable previous output. -/
def inputEntries (prevouts : List (Option TxOut)) (total_output : CAmount) : Option InputLoop :=
  let inputs_known := !tx.vin.isEmpty
  if api.isCoinBase tx then
    some { inputs := [coinbaseEntry total_output], total_input := total_output, inputs_known }
  else (inputs wtx tx prevouts).foldlM (inputStep api) { inputs_known }

/-! ## The flow -/

def allMine : Bool := !tx.vin.isEmpty && wtx.txin_is_mine.all id

/-- What the inputs put in, as far as it is known. -/
def inputDebit (s : InputLoop) : Option CAmount :=
  if s.inputs_known then some s.total_input
  else if allMine wtx tx && moneyRange wtx.debit then some wtx.debit
  else none

def feeOf (s : InputLoop) (total_output : CAmount) : Option CAmount :=
  if api.isCoinBase tx then none
  else (inputDebit wtx tx s).bind fun debit =>
    if total_output ≤ debit then some (debit - total_output) else none

/-- The vectors of the record are those of its transaction. -/
def consistent : Bool :=
  wtx.txin_is_mine.length == tx.vin.length && wtx.txout_is_mine.length == tx.vout.length &&
    wtx.txout_is_change.length == tx.vout.length

/-- No value stands for the empty flow. -/
def buildTransactionFlow (prevouts : List (Option TxOut)) (collapse_outputs : Bool) :
    Option TransactionFlow := do
  let tx ← wtx.tx
  if !consistent wtx tx then none
  else
    let (outputs, total_output) ← outputEntries api wtx tx collapse_outputs
    let s ← inputEntries api wtx tx prevouts total_output
    let fee := feeOf api wtx tx s total_output
    let coinbase := api.isCoinBase tx
    some {
      inputs := s.inputs
      outputs
      inputCount := tx.vin.length
      outputCount := tx.vout.length
      totalInputKnown := s.inputs_known
      totalInputSat := if s.inputs_known then some s.total_input else none
      totalOutputSat := total_output
      feeKnown := fee.isSome
      feeSat := fee
      coinbase
      complete := s.inputs_known && (coinbase || fee.isSome)
      virtualSize := api.virtualSize tx
      signalsRbf := api.signalsOptInRBF tx
      size := api.serializeSize tx
      weight := api.weight tx
      version := tx.version
      lockTime := tx.nLockTime }

end Build

end GuiQml.Flow
