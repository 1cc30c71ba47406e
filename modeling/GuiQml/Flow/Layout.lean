import GuiQml.Flow.Build
import Mathlib.Data.Rat.Defs
import Mathlib.Algebra.Order.Ring.Rat

/-!
# The layout of a flow

`TransactionFlowLayout.js`: the entries that a diagram shows, the widths of their ribbons and where the
ribbons run. Numbers are rational, and a division by zero gives no value.
-/

namespace GuiQml.Flow

def div? (a b : ℚ) : Option ℚ := if b = 0 then none else some (a / b)

/-! ## Amounts -/

def amountKnown (entry : Entry) : Bool := entry.amountKnown && entry.amountSat.any (0 ≤ ·)

def amount (entry : Entry) : Int := entry.amountSat.getD 0

def sumFrom (knownOnly : Bool) : (total : Int) → List Entry → Option Int
  | total, [] => some total
  | total, entry :: rest =>
    if !amountKnown entry then if knownOnly then sumFrom knownOnly total rest else none
    else sumFrom knownOnly (total + amount entry) rest

/-- No value where an amount is unknown, unless those are skipped. -/
def sum (entries : List Entry) (knownOnly : Bool) : Option Int := sumFrom knownOnly 0 entries

def positiveAmount (entry : Entry) : Bool := amountKnown entry && 0 < amount entry

/-! ## Entries -/

def outputGroupOf (outputs : List Entry) : Option Entry :=
  let grouped := outputs.filter (·.ownership ≠ .wallet)
  if grouped.length < 2 then none
  else some {
    id := "non-wallet-outputs"
    kind := .outputGroup
    outputCount := some grouped.length
    ownership := if grouped.all (·.ownership = .external) then .external else .unknown
    amountKnown := (sum grouped false).isSome
    amountSat := sum grouped false
    address := "" }

/-- The outputs with the group in place of the first one that does not belong to the wallet. -/
def groupedOutputs (group : Entry) : (grouped : Bool) → List Entry → List Entry
  | _, [] => []
  | grouped, entry :: rest =>
    if entry.ownership = .wallet then entry :: groupedOutputs group grouped rest
    else if grouped then groupedOutputs group true rest
    else group :: groupedOutputs group true rest

def feeEntry (flow : TransactionFlow) : Entry where
  id := "fee"
  kind := .fee
  ownership := .fee
  amountKnown := flow.feeKnown
  amountSat := if flow.feeKnown then flow.feeSat else none
  address := ""

/-- The fee is always an entry of its own. -/
def shownOutputs (flow : TransactionFlow) (group : Option Entry) : List Entry :=
  let entries := match group with
    | none => flow.outputs
    | some group => groupedOutputs group false flow.outputs
  if !flow.coinbase && !entries.isEmpty then entries ++ [feeEntry flow] else entries

/-! ## Positions -/

structure Node where
  entry : Entry
  y : ℚ
  height : ℚ
  deriving DecidableEq

/-- The height of the entry at `i`, 80 where it is not given. -/
def heightAt (heights : List ℚ) (i : Nat) : ℚ :=
  let height := heights.getD i 0
  if height = 0 then 80 else height

def placeFrom (heights : List ℚ) : (i : Nat) → (height : ℚ) → List Entry → List Node × ℚ
  | _, height, [] => ([], height)
  | i, height, entry :: rest =>
    let h := heightAt heights i
    let (nodes, bottom) := placeFrom heights (i + 1) (height + h + 12) rest
    (⟨entry, height, h⟩ :: nodes, bottom)

def positions (entries : List Entry) (heights : List ℚ) : List Node × ℚ :=
  let (nodes, height) := placeFrom heights 0 0 entries
  (nodes, max 0 (height - 12))

/-! ## Ribbons -/

/-- The width before the known amounts are shared out. -/
def fixedWidth (entry : Entry) : ℚ :=
  if amountKnown entry then (if entry.kind = .data && amount entry = 0 then 1 else 0)
  else if entry.kind = .fee then 2 else 4

/-- A positive amount, and the entry that it is of. -/
structure Known where
  index : Nat
  amount : ℚ
  deriving DecidableEq

/-- The positive amounts in the order of the entries. -/
def knownAmounts (entries : List Entry) : List Known :=
  (entries.zipIdx.filter fun p => positiveAmount p.1).map fun p => ⟨p.2, amount p.1⟩

structure RibbonLoop where
  widths : List ℚ
  remainingAmount : ℚ
  remainingWidth : ℚ

def ribbonStep (s : RibbonLoop) (entry : Known) : Option RibbonLoop := do
  let part ← div? entry.amount s.remainingAmount
  let width := max 1 (part * s.remainingWidth)
  some {
    widths := s.widths.set entry.index width
    remainingAmount := s.remainingAmount - entry.amount
    remainingWidth := s.remainingWidth - width }

def dataWidth (entries : List Entry) : ℚ :=
  (entries.map fun entry => if amountKnown entry && entry.kind = .data then fixedWidth entry else 0).sum

/-- A width of 1 is kept for every small positive amount, and the others share what is left. -/
def ribbonWidths (entries : List Entry) (amountScale totalWidth : ℚ) : Option (List ℚ) := do
  let known := (knownAmounts entries).mergeSort fun a b => a.amount ≤ b.amount
  let remainingAmount ← sum entries true
  let scaled ←
    if 0 < amountScale then do
      let part ← div? remainingAmount amountScale
      some (part * totalWidth - dataWidth entries)
    else some 0
  let s ← known.foldlM ribbonStep {
    widths := entries.map fixedWidth
    remainingAmount
    remainingWidth := max known.length scaled }
  some s.widths

structure Ribbon where
  id : String
  startX : ℚ
  endX : ℚ
  startY : ℚ
  endY : ℚ
  thickness : ℚ
  proportional : Bool
  inferredWidth : Bool := false
  sourceOwnership : Ownership
  targetOwnership : Ownership
  targetKind : Option Kind := none
  deriving DecidableEq

structure Layout where
  height : ℚ
  inputWidth : ℚ
  outputWidth : ℚ
  outputX : ℚ
  junctionX : ℚ
  inputs : List Node
  outputs : List Node
  ribbons : List Ribbon
  proportional : Bool
  amountsKnown : Bool
  deriving DecidableEq

section Calculate

variable (inputs outputs : List Entry)

def proportional (complete : Bool) : Bool :=
  let inputTotal := sum inputs false
  complete && inputTotal.any (0 < ·) && inputTotal = sum outputs false

def amountScale : ℚ := max ((sum inputs true).getD 0 : ℚ) ((sum outputs true).getD 0 : ℚ)

def totalWidth : ℚ :=
  max 64 (max ((inputs.filter positiveAmount).length : ℚ) ((outputs.filter positiveAmount).length : ℚ))

/-- The widths of the inputs, of which the unknown ones share what is left of the band. -/
def inferInputs (inputWidths outputWidths : List ℚ) : Option (List ℚ × Bool) :=
  let unknownInputs := (inputs.filter fun entry => !amountKnown entry).length
  if unknownInputs = 0 then some (inputWidths, false)
  else
    let known := (inputs.zip inputWidths).map fun (entry, width) => if amountKnown entry then width else 0
    let remaining := outputWidths.sum - known.sum
    if 0 < remaining then do
      let width ← div? remaining unknownInputs
      some ((inputs.zip inputWidths).map fun (entry, w) => if amountKnown entry then w else width, true)
    else some (inputWidths, false)

/-- The ownership that all inputs share. -/
def junctionOwnership : Ownership :=
  match inputs with
  | [] => .unknown
  | first :: _ => inputs.foldl (fun ownership entry =>
      if entry.ownership ≠ ownership then .unknown else ownership) first.ownership

/-- What the two sides of a diagram share. -/
structure Frame where
  height : ℚ
  inputWidth : ℚ
  junctionX : ℚ
  outputX : ℚ
  scaled : Bool
  inferredInputs : Bool
  junctionOwnership : Ownership

structure SideLoop where
  offset : ℚ := 0
  junctionMin : ℚ
  junctionMax : ℚ
  nodes : List Node := []
  ribbons : List Ribbon := []

def sideStep (f : Frame) (isInput : Bool) (junctionTop shift : ℚ) (s : SideLoop) (p : Node × ℚ) :
    SideLoop :=
  let node := { p.1 with y := p.1.y + shift }
  let lineWidth := p.2
  let portY := junctionTop + s.offset + lineWidth / 2
  let s := { s with offset := s.offset + lineWidth, nodes := s.nodes ++ [node] }
  if lineWidth = 0 then s
  else { s with
    junctionMin := min s.junctionMin portY
    junctionMax := max s.junctionMax portY
    ribbons := s.ribbons ++ [{
      id := (if isInput then "in:" else "out:") ++ node.entry.id
      startX := if isInput then f.inputWidth else f.junctionX
      endX := if isInput then f.junctionX else f.outputX
      startY := if isInput then node.y + node.height / 2 else portY
      endY := if isInput then portY else node.y + node.height / 2
      thickness := lineWidth
      proportional := positiveAmount node.entry && f.scaled
      inferredWidth := isInput && f.inferredInputs && !amountKnown node.entry
      sourceOwnership := if isInput then node.entry.ownership else f.junctionOwnership
      targetOwnership := if isInput then f.junctionOwnership else node.entry.ownership
      targetKind := if isInput then none else some node.entry.kind }] }

/-- One side of the diagram. Its ports lie side by side around the middle of the junction. -/
def side (f : Frame) (isInput : Bool) (group : List Node × ℚ) (widths : List ℚ) (s : SideLoop) : SideLoop :=
  let junctionTop := (f.height - widths.sum) / 2
  let shift := (f.height - group.2) / 2
  (group.1.zip widths).foldl (sideStep f isInput junctionTop shift)
    { s with offset := 0, nodes := [] }

def calculate (inputHeights outputHeights : List ℚ) (width : ℚ) (complete : Bool) : Option Layout := do
  let left := positions inputs inputHeights
  let right := positions outputs outputHeights
  let height := max left.2 right.2
  let inputWidth := width * (35 / 100)
  let outputWidth := width * (35 / 100)
  let outputX := width - outputWidth
  let junctionX := (inputWidth + outputX) / 2
  let proportional := proportional inputs outputs complete
  let amountScale := amountScale inputs outputs
  let inputWidths ← ribbonWidths inputs amountScale (totalWidth inputs outputs)
  let outputWidths ← ribbonWidths outputs amountScale (totalWidth inputs outputs)
  let (inputWidths, inferredInputs) ← inferInputs inputs inputWidths outputWidths
  let f : Frame := {
    height, inputWidth, junctionX, outputX, inferredInputs
    scaled := 0 < amountScale
    junctionOwnership := junctionOwnership inputs }
  let l := side f true left inputWidths { junctionMin := height / 2, junctionMax := height / 2 }
  let r := side f false right outputWidths l
  -- Where the band is not continuous, a neutral connector joins the ports.
  let junction : List Ribbon :=
    if !proportional && !inferredInputs && r.junctionMin < r.junctionMax then
      [{ id := "junction", startX := junctionX, endX := junctionX, startY := r.junctionMin,
         endY := r.junctionMax, thickness := 4, proportional := false,
         sourceOwnership := .unknown, targetOwnership := .unknown }]
    else []
  some {
    height, inputWidth, outputWidth, outputX, junctionX, proportional
    inputs := l.nodes
    outputs := r.nodes
    ribbons := junction ++ r.ribbons
    amountsKnown := (sum inputs false).isSome && (sum outputs false).isSome }

end Calculate

end GuiQml.Flow
