import GuiQml.Wallet.Transaction
import Mathlib.Algebra.BigOperators.Group.List.Basic
import Mathlib.Algebra.Ring.Int.Defs

/-!
# What a transaction did

`transactionactivity.cpp`: the actions shown for a wallet transaction, before labels, status and
filtering.
-/

namespace GuiQml.Interpret

open Wallet (CAmount OutPoint Script Transaction TxIn TxOut)

/-- Core's functions of a transaction and its outputs. -/
structure CoreApi (Destination : Type) where
  getHex : Transaction → String
  /-- No value where it throws. -/
  getValueOut : Transaction → Option CAmount
  isUnspendable : Script → Bool
  encodeDestination : Destination → String

structure WalletTx (Destination : Type) where
  tx : Option Transaction
  txin_is_mine : List Bool
  txout_is_mine : List Bool
  txout_is_change : List Bool
  txout_address : List Destination
  credit : CAmount
  debit : CAmount
  time : Int
  value_map : List (String × String)
  is_coinbase : Bool

inductive Direction
  | send | receive | internal
  deriving DecidableEq, Repr

inductive Source
  | output | walletInputs
  deriving DecidableEq, Repr

structure TransactionAction where
  id : String
  direction : Direction := .internal
  source : Source := .output
  amount : CAmount := 0
  address : String := ""
  output_index : Int := -1
  inputs : List OutPoint := []
  deriving DecidableEq, Repr

inductive ActivityType
  | send | receive | multiple | consolidation | split | internalTransfer | mined | other
  deriving DecidableEq, Repr

structure TransactionActivity where
  txid : String
  type : ActivityType := .other
  timestamp : Int := 0
  wallet_debit : CAmount := 0
  wallet_credit : CAmount := 0
  fee : Option CAmount := none
  replaces_txid : String := ""
  replaced_by_txid : String := ""
  actions : List TransactionAction := []
  deriving DecidableEq, Repr

def TransactionActivity.walletImpact (activity : TransactionActivity) : CAmount :=
  activity.wallet_credit - activity.wallet_debit

/-- One output, with what the wallet says of it. -/
structure Output (Destination : Type) where
  index : Nat
  out : TxOut
  mine : Bool
  change : Bool
  address : Destination

variable {Destination : Type} (core : CoreApi Destination) (wtx : WalletTx Destination)

def outputs (tx : Transaction) : List (Output Destination) :=
  (tx.vout.zip (wtx.txout_is_mine.zip (wtx.txout_is_change.zip wtx.txout_address))).zipIdx.map
    fun ((out, mine, change, address), index) => ⟨index, out, mine, change, address⟩

def isDataOutput (output : TxOut) : Bool := output.nValue == 0 && core.isUnspendable output.scriptPubKey

/-! ## The flags -/

/-- The flags that decide what becomes of an output. -/
structure Flags where
  all_from_wallet : Bool
  mixed_inputs : Bool
  internal : Bool
  consolidation : Bool
  self_send : Bool
  deriving DecidableEq, Repr

def ownedInputs : Nat := if wtx.is_coinbase then 0 else wtx.txin_is_mine.count true

def ownedOutputs : Nat := wtx.txout_is_mine.count true

def flags (tx : Transaction) (outs : List (Output Destination)) : Flags :=
  let payments := outs.filter fun o => !isDataOutput core o.out
  let all_from_wallet := !wtx.is_coinbase && ownedInputs wtx == tx.vin.length
  let mixed_inputs := 0 < ownedInputs wtx && !all_from_wallet
  let all_to_wallet := payments.all (·.mine)
  let internal_output_count := (payments.filter (·.mine)).length
  let internal_recipient_count := (payments.filter fun o => o.mine && !o.change).length
  let internal := all_from_wallet && all_to_wallet && 0 < internal_output_count
  let consolidation := internal && internal_output_count < ownedInputs wtx
  let self_send := internal && !consolidation && internal_recipient_count == 1
  ⟨all_from_wallet, mixed_inputs, internal, consolidation, self_send⟩

/-! ## The actions -/

/-- The total the wallet put in beside inputs of others. -/
def contribution (tx : Transaction) : TransactionAction where
  id := core.getHex tx ++ ":wallet-inputs"
  direction := .send
  source := .walletInputs
  amount := wtx.debit
  inputs := ((tx.vin.zip wtx.txin_is_mine).filter (·.2)).map (·.1.prevout)

/-- The action for an output, where it is not skipped. -/
def outputAction (tx : Transaction) (f : Flags) (o : Output Destination) : Option TransactionAction :=
  if isDataOutput core o.out then none
  else if !f.all_from_wallet && !o.mine then none
  else if f.all_from_wallet && (!f.internal || f.self_send) && o.mine && o.change then none
  else some {
    id := core.getHex tx ++ ":output:" ++ toString o.index
    output_index := o.index
    amount := o.out.nValue
    address := core.encodeDestination o.address
    direction := if f.all_from_wallet then (if o.mine then .internal else .send) else .receive }

def actions (tx : Transaction) (f : Flags) (outs : List (Output Destination)) : List TransactionAction :=
  (if f.mixed_inputs then [contribution core wtx tx] else []) ++ outs.filterMap (outputAction core tx f)

def activityType (f : Flags) (outs : List (Output Destination))
    (actions : List TransactionAction) : ActivityType :=
  let internal_output_count := (outs.filter fun o => !isDataOutput core o.out && o.mine).length
  if wtx.is_coinbase then .mined
  else if f.internal then
    if f.consolidation then .consolidation
    else if !f.self_send && ownedInputs wtx < internal_output_count then .split
    else .internalTransfer
  else match actions with
    | [] => .other
    | [action] => if action.direction = .send then .send else .receive
    | _ => .multiple

/-- Whether the lists of `WalletTx` go with the transaction. -/
def isComplete (tx : Transaction) : Bool :=
  !tx.vin.isEmpty && !tx.vout.isEmpty && wtx.txin_is_mine.length == tx.vin.length &&
    wtx.txout_is_mine.length == tx.vout.length && wtx.txout_is_change.length == tx.vout.length &&
    wtx.txout_address.length == tx.vout.length

def ownedValue (outs : List (Output Destination)) : CAmount :=
  ((outs.filter (·.mine)).map (·.out.nValue)).sum

inductive Thrown
  | valueOutOfRange
  deriving DecidableEq, Repr

def fee (tx : Transaction) (f : Flags) : Except Thrown (Option CAmount) :=
  if f.all_from_wallet then
    match core.getValueOut tx with
    | none => .error .valueOutOfRange
    | some value_out => .ok (if 0 ≤ wtx.debit - value_out then some (wtx.debit - value_out) else none)
  else .ok none

def fromWalletTx : Except Thrown (Option TransactionActivity) :=
  match wtx.tx with
  | none => .ok none
  | some tx =>
    if !isComplete wtx tx then .ok none
    else if ownedInputs wtx = 0 ∧ ownedOutputs wtx = 0 then .ok none
    else
      let outs := outputs wtx tx
      let f := flags core wtx tx outs
      let acts := actions core wtx tx f outs
      (fee core wtx tx f).map fun fee => some {
        txid := core.getHex tx
        type := activityType core wtx f outs acts
        timestamp := wtx.time
        wallet_debit := wtx.debit
        wallet_credit := if wtx.is_coinbase then ownedValue outs else wtx.credit
        fee := fee
        replaces_txid := (wtx.value_map.lookup "replaces_txid").getD ""
        replaced_by_txid := (wtx.value_map.lookup "replaced_by_txid").getD ""
        actions := acts }

end GuiQml.Interpret
