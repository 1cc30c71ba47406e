import GuiQml.Rpc.CommandLine

/-!
# Commands and their extents

What a command line says, without results and without a depth counter: which commands are open at a
position, and which of them are sensitive. This is what the parser is measured against.
-/

namespace GuiQml.Rpc

open Nesting

/-! ## Reading a command line -/

/-- An open command: whether its name is complete, and for a sensitive one the position of the
delimiter after its name. -/
structure Command where
  named : Bool
  secret : Option Nat
  deriving DecidableEq, Repr

/-- `commands` are the open ones, the innermost first. `closed` are the extents of the outermost sensitive
commands that ended. -/
structure Scan where
  state : CmdParseState := .eatingSpaces
  word : Str := []
  commands : List Command := [⟨false, none⟩]
  closed : List Span := []
  deriving DecidableEq, Repr

/-- A line the scanner cannot read on. A stray word stands behind the end of the top-level command. -/
inductive ScanStop
  | invalidSyntax
  | strayWord
  deriving DecidableEq, Repr

def secrets (commands : List Command) : List (Option Nat) := commands.map (·.secret)

@[simp] theorem secrets_nil : secrets [] = [] := rfl

@[simp] theorem secrets_cons (command : Command) (commands : List Command) :
    secrets (command :: commands) = command.secret :: secrets commands := rfl

namespace Scan

variable (sensitive : Str → Bool) (sc : Scan)

/-- A complete word names the innermost command, or is one of its arguments. -/
def addWord (pos : Nat) : Option Scan :=
  match sc.commands with
  | [] => none
  | command :: rest =>
    let command := if command.named then command
      else ⟨true, if sensitive sc.word then some pos else none⟩
    some { sc with commands := command :: rest, word := [] }

/-- The innermost command ends before `pos`. -/
def endCommand (pos : Nat) : Scan :=
  { sc with
    state := .eatingSpaces
    word := []
    commands := sc.commands.tail
    closed := sc.closed ++ covered (secrets sc.commands) pos }

/-- A bracket right after a word starts a nested command, unless the word is the first one. -/
def enter (ch : Char) : Scan :=
  if ch = '(' && sc.commands.head?.any (·.named) then
    { sc with commands := ⟨false, none⟩ :: sc.commands }
  else sc

/-- `)` and line ends execute the innermost command. -/
def execute (ch : Char) : Scan :=
  if ch = '(' || sc.commands.isEmpty then sc else { sc with state := .commandExecuted, word := [] }

def bracket (pos : Nat) (ch : Char) : Except ScanStop Scan :=
  match sc.state with
  | .eatingSpacesInArg => .error .invalidSyntax
  | .argument =>
    match (sc.enter ch).addWord sensitive pos with
    | none => .error .invalidSyntax
    | some sc => .ok ({ sc with state := .eatingSpacesInBrackets }.execute ch)
  | _ => .ok (sc.execute ch)

def blank (pos : Nat) (ch : Char) : Except ScanStop Scan :=
  match sc.state with
  | .argument =>
    match sc.addWord sensitive pos with
    | none => .error .strayWord
    | some sc => .ok { sc with state := if ch = ',' then .eatingSpacesInArg else .eatingSpaces }
  | .eatingSpacesInArg => if ch = ',' then .error .invalidSyntax
    else .ok { sc with state := .eatingSpaces }
  | .eatingSpacesInBrackets =>
    .ok { sc with state := if ch = ',' then .eatingSpacesInArg else .eatingSpaces }
  | _ => .ok { sc with state := .eatingSpaces }

def outer (pos : Nat) (ch : Char) : Except ScanStop Scan :=
  if ch = '"' then .ok { sc with state := .doubleQuoted }
  else if ch = '\'' then .ok { sc with state := .singleQuoted }
  else if ch = '\\' then .ok { sc with state := .escapeOuter }
  else if ch = '(' ∨ ch = ')' ∨ ch = '\n' then sc.bracket sensitive pos ch
  else if ch = ' ' ∨ ch = ',' ∨ ch = '\t' then sc.blank sensitive pos ch
  else .ok { sc with state := .argument, word := sc.word ++ [ch] }

def scan (pos : Nat) (ch : Char) : Except ScanStop Scan :=
  match sc.state with
  | .commandExecuted =>
    if ch = '[' then .ok { sc with state := .commandExecutedInner }
    else (sc.endCommand pos).outer sensitive pos ch
  | .commandExecutedInner =>
    .ok { sc with state := if ch = ']' then .commandExecuted else .commandExecutedInner }
  | .singleQuoted =>
    .ok (if ch = '\'' then { sc with state := .argument }
      else { sc with word := sc.word ++ [ch] })
  | .doubleQuoted =>
    .ok (if ch = '"' then { sc with state := .argument }
      else if ch = '\\' then { sc with state := .escapeDoubleQuoted }
      else { sc with word := sc.word ++ [ch] })
  | .escapeOuter => .ok { sc with state := .argument, word := sc.word ++ [ch] }
  | .escapeDoubleQuoted =>
    .ok { sc with
      state := .doubleQuoted
      word := (if ch = '"' ∨ ch = '\\' then sc.word else sc.word ++ ['\\']) ++ [ch] }
  | _ => sc.outer sensitive pos ch

def scanAll (sc : Scan) (pos : Nat) : Str → Except ScanStop Scan
  | [] => .ok sc
  | ch :: rest =>
    match sc.scan sensitive pos ch with
    | .error e => .error e
    | .ok sc => scanAll sc (pos + 1) rest

end Scan

/-- The line, read to its end. -/
def scanLine (sensitive : Str → Bool) (strCommand : Str) : Except ScanStop Scan :=
  Scan.scanAll sensitive {} 0 (terminated strCommand)

/-! ## What holds at every position -/

/-- The open commands and the closed extents, with all positions before `pos`. -/
structure Framed (pos : Nat) (commands : List Command) (closed : List Span) : Prop where
  named : ∀ command ∈ commands.tail, command.named = true
  plain : ∀ command ∈ commands, command.named = false → command.secret = none
  secret : ∀ start, some start ∈ secrets commands → 0 < start ∧ start < pos
  inOrder : InOrder 0 (pos - 1) closed
  ended : ∀ span ∈ closed, span.2 < pos
  apart : ∀ span ∈ closed, ∀ start, some start ∈ secrets commands → span.2 ≤ start

namespace Framed

variable {pos : Nat} {command : Command} {commands : List Command} {closed : List Span}

theorem later (h : Framed pos commands closed) : Framed (pos + 1) commands closed where
  named := h.named
  plain := h.plain
  secret start hs := ⟨(h.secret start hs).1, Nat.lt_succ_of_lt (h.secret start hs).2⟩
  inOrder := h.inOrder.mono (by omega)
  ended span hs := Nat.lt_succ_of_lt (h.ended span hs)
  apart := h.apart

theorem name (h : Framed pos (command :: commands) closed) (hpos : 0 < pos) (secret : Bool) :
    Framed (pos + 1) (⟨true, if secret then some pos else none⟩ :: commands) closed where
  named := h.named
  plain c hc hn := by
    rcases List.mem_cons.mp hc with rfl | hc
    · simp at hn
    · exact h.plain c (by simp [hc]) hn
  secret start hs := by
    rcases List.mem_cons.mp hs with hs | hs
    · cases secret <;> simp at hs
      omega
    · have := h.secret start (by simp [secrets] at hs ⊢; exact .inr hs)
      omega
  inOrder := h.inOrder.mono (by omega)
  ended span hs := Nat.lt_succ_of_lt (h.ended span hs)
  apart span hspan start hs := by
    rcases List.mem_cons.mp hs with hs | hs
    · have := h.ended span hspan
      cases secret <;> simp at hs
      omega
    · exact h.apart span hspan start (by simp [secrets] at hs ⊢; exact .inr hs)

theorem push (h : Framed pos (command :: commands) closed) (hc : command.named = true) :
    Framed pos (⟨false, none⟩ :: command :: commands) closed where
  named c hmem := by
    rcases List.mem_cons.mp hmem with rfl | hmem
    · exact hc
    · exact h.named c hmem
  plain c hmem hn := by
    rcases List.mem_cons.mp hmem with rfl | hmem
    · rfl
    · exact h.plain c hmem hn
  secret start hs := h.secret start (by simpa [secrets] using hs)
  inOrder := h.inOrder
  ended := h.ended
  apart span hspan start hs := h.apart span hspan start (by simpa [secrets] using hs)

theorem secrets_tail {start : Nat} (hs : some start ∈ secrets commands.tail) :
    some start ∈ secrets commands := by
  rw [secrets, List.map_tail] at hs
  exact List.mem_of_mem_tail hs

theorem clear_of_covered {start : Nat} (hout : outermost (secrets commands) = some (1, start)) :
    ∀ b, some b ∉ secrets commands.tail := by
  refine outermost_eq_none_iff.mp ?_
  cases commands with
  | nil => rfl
  | cons command rest =>
    simp only [secrets_cons, outermost] at hout
    split at hout
    · rename_i depth b hrest
      have := outermost_depth_pos hrest
      simp at hout
      omega
    · assumption

theorem pop_inOrder (h : Framed pos commands closed) :
    InOrder 0 (pos - 1) (closed ++ covered (secrets commands) pos) := by
  unfold covered
  split
  · rename_i start hout
    have := h.secret start (outermost_mem hout)
    exact h.inOrder.append (fun span hs => h.apart span hs start (outermost_mem hout))
      (by omega) (by omega) (by omega)
  · simpa using h.inOrder

theorem pop (h : Framed pos commands closed) :
    Framed (pos + 1) commands.tail (closed ++ covered (secrets commands) pos) where
  named c hc := h.named c (List.mem_of_mem_tail hc)
  plain c hc := h.plain c (List.mem_of_mem_tail hc)
  secret b hb :=
    have := h.secret b (secrets_tail hb)
    ⟨this.1, Nat.lt_succ_of_lt this.2⟩
  inOrder := h.pop_inOrder.mono (by omega)
  ended span hs := by
    rcases List.mem_append.mp hs with hs | hs
    · exact Nat.lt_succ_of_lt (h.ended span hs)
    · unfold covered at hs
      split at hs <;> simp at hs
      simp [hs]
  apart span hs b hb := by
    rcases List.mem_append.mp hs with hs | hs
    · exact h.apart span hs b (secrets_tail hb)
    · unfold covered at hs
      split at hs
      · rename_i start hout
        exact absurd hb (clear_of_covered hout b)
      · simp at hs

end Framed

/-- The characters that may stand before the first word. -/
def Leading (ch : Char) : Prop := ch = ' ' ∨ ch = ',' ∨ ch = '\t' ∨ ch = '('

/-- The states between two words. -/
def CmdParseState.between : CmdParseState → Bool
  | .eatingSpaces | .eatingSpacesInArg | .eatingSpacesInBrackets => true
  | _ => false

/-- The states after a command was executed. -/
def CmdParseState.executed : CmdParseState → Bool
  | .commandExecuted | .commandExecutedInner => true
  | _ => false

theorem CmdParseState.not_executed_of_between {state : CmdParseState} (h : state.between = true) :
    state.executed = false := by
  cases state <;> simp_all [between, executed]

/-- What holds after reading `pre`. -/
structure Scan.Wf (pre : Str) (sc : Scan) : Prop where
  framed : Framed pre.length sc.commands sc.closed
  word : sc.state.between → sc.word = []
  live : sc.state.executed → sc.commands ≠ []
  first : pre = [] → sc.state = .eatingSpaces
  leading : sc.state.between → (∃ command ∈ sc.commands, command.named = false) →
    sc.state = .eatingSpaces ∧ ∀ ch ∈ pre, Leading ch

namespace Scan

variable {sensitive : Str → Bool} {pre : Str} {sc sc' : Scan} {ch : Char}

theorem wf_start : Scan.Wf [] {} where
  framed := by
    refine ⟨?_, ?_, ?_, trivial, ?_, ?_⟩ <;> simp [secrets]
  word _ := rfl
  live h := nomatch h
  first _ := rfl
  leading _ _ := ⟨rfl, by simp⟩

theorem wf_inWord (hf : Framed (pre.length + 1) sc.commands sc.closed)
    (hb : sc.state.between = false) (he : sc.state.executed = false) : Scan.Wf (pre ++ [ch]) sc where
  framed := by simpa using hf
  word hs := by simp [hb] at hs
  live hs := by simp [he] at hs
  first hs := by simp at hs
  leading hs := by simp [hb] at hs

theorem wf_between (hf : Framed (pre.length + 1) sc.commands sc.closed)
    (hb : sc.state.between = true) (hw : sc.word = [])
    (hlead : (∃ command ∈ sc.commands, command.named = false) →
      sc.state = .eatingSpaces ∧ ∀ c ∈ pre ++ [ch], Leading c) : Scan.Wf (pre ++ [ch]) sc where
  framed := by simpa using hf
  word _ := hw
  live hs := by simp [CmdParseState.not_executed_of_between hb] at hs
  first hs := by simp at hs
  leading _ := hlead

theorem wf_executed (hf : Framed (pre.length + 1) sc.commands sc.closed)
    (he : sc.state.executed = true) (hc : sc.commands ≠ []) : Scan.Wf (pre ++ [ch]) sc where
  framed := by simpa using hf
  word hs := by simp [CmdParseState.not_executed_of_between hs] at he
  live _ := hc
  first hs := by simp at hs
  leading hs := by simp [CmdParseState.not_executed_of_between hs] at he

theorem addWord_framed (hf : Framed pre.length sc.commands sc.closed) (hpos : pre ≠ [])
    (hadd : sc.addWord sensitive pre.length = some sc') :
    Framed (pre.length + 1) sc'.commands sc'.closed ∧ sc'.word = [] ∧ sc'.commands ≠ [] ∧
      ∀ command ∈ sc'.commands, command.named = true := by
  unfold addWord at hadd
  split at hadd
  · cases hadd
  · rename_i command rest hcmds
    cases hadd
    rw [hcmds] at hf
    have hnamed : ∀ c ∈ rest, c.named = true := hf.named
    dsimp only
    split
    · rename_i hn
      exact ⟨hf.later, rfl, by simp, by simpa [hn] using hnamed⟩
    · exact ⟨hf.name (List.length_pos_iff.mpr hpos) _, rfl, by simp, by simpa using hnamed⟩

theorem outer_wf_between (hf : Framed (pre.length + 1) sc.commands sc.closed)
    (hb : sc.state.between = true) (hw : sc.word = [])
    (hlead : (∃ command ∈ sc.commands, command.named = false) →
      sc.state = .eatingSpaces ∧ ∀ c ∈ pre, Leading c)
    (h : sc.outer sensitive pre.length ch = .ok sc') : Scan.Wf (pre ++ [ch]) sc' := by
  have hlead' : Leading ch → (∃ command ∈ sc.commands, command.named = false) →
      sc.state = .eatingSpaces ∧ ∀ c ∈ pre ++ [ch], Leading c := fun hch hu =>
    ⟨(hlead hu).1, by simpa [or_imp, forall_and] using ⟨(hlead hu).2, hch⟩⟩
  unfold outer at h
  split at h
  · cases h; exact wf_inWord hf rfl rfl
  split at h
  · cases h; exact wf_inWord hf rfl rfl
  split at h
  · cases h; exact wf_inWord hf rfl rfl
  split at h
  · rename_i hbracket
    unfold bracket at h
    split at h
    · cases h
    · rename_i hs
      simp [hs, CmdParseState.between] at hb
    · cases h
      unfold execute
      split
      · rename_i hopen
        refine wf_between hf hb hw fun hu => ?_
        refine hlead' ?_ hu
        obtain ⟨command, hc, -⟩ := hu
        have hne : sc.commands.isEmpty = false := by
          cases hcs : sc.commands with
          | nil => simp [hcs] at hc
          | cons => rfl
        simp only [hne, Bool.or_false, decide_eq_true_eq] at hopen
        exact .inr (.inr (.inr hopen))
      · rename_i hopen
        refine wf_executed hf rfl fun hc => ?_
        simp at hopen
        exact hopen.2 hc
  split at h
  · rename_i hblank
    have hch : Leading ch := by
      rcases hblank with h | h | h
      · exact .inl h
      · exact .inr (.inl h)
      · exact .inr (.inr (.inl h))
    unfold blank at h
    split at h
    · rename_i hs
      simp [hs, CmdParseState.between] at hb
    · rename_i hs
      split at h
      · cases h
      · cases h
        exact wf_between hf rfl hw fun hu => ⟨rfl, (hlead' hch hu).2⟩
    · rename_i hs
      cases h
      refine wf_between hf ?_ hw fun hu => ?_
      · dsimp only
        split <;> rfl
      · simp [hs] at hlead
        obtain ⟨command, hc, hn⟩ := hu
        simp [hlead command hc] at hn
    · cases h
      exact wf_between hf rfl hw fun hu => ⟨rfl, (hlead' hch hu).2⟩
  · cases h
    exact wf_inWord hf rfl rfl

theorem enter_framed {pos : Nat} (hf : Framed pos sc.commands sc.closed) :
    Framed pos (sc.enter ch).commands (sc.enter ch).closed := by
  unfold enter
  split
  · rename_i hnested
    cases hcmds : sc.commands with
    | nil => simp [hcmds] at hnested
    | cons command rest =>
      simp only [hcmds, List.head?_cons, Option.any_some, Bool.and_eq_true] at hnested
      exact (hcmds ▸ hf).push hnested.2
  · exact hf

theorem outer_wf_argument (hwf : sc.Wf pre) (hs : sc.state = .argument)
    (h : sc.outer sensitive pre.length ch = .ok sc') : Scan.Wf (pre ++ [ch]) sc' := by
  have hpos : pre ≠ [] := fun h => by simp [hwf.first h] at hs
  have hf := hwf.framed.later
  unfold outer at h
  split at h
  · cases h; exact wf_inWord hf rfl rfl
  split at h
  · cases h; exact wf_inWord hf rfl rfl
  split at h
  · cases h; exact wf_inWord hf rfl rfl
  split at h
  · simp only [bracket, hs] at h
    split at h
    · cases h
    · rename_i sc₁ hadd
      obtain ⟨hf₁, hw₁, hc₁, hn₁⟩ := addWord_framed (enter_framed hwf.framed) hpos hadd
      have hnamed : (∃ command ∈ sc₁.commands, command.named = false) → False := by
        rintro ⟨command, hc, hn⟩
        simp [hn₁ command hc] at hn
      cases h
      unfold execute
      split
      · exact wf_between hf₁ rfl hw₁ fun hu => (hnamed hu).elim
      · exact wf_executed hf₁ rfl hc₁
  split at h
  · simp only [blank, hs] at h
    split at h
    · cases h
    · rename_i sc₁ hadd
      obtain ⟨hf₁, hw₁, -, hn₁⟩ := addWord_framed hwf.framed hpos hadd
      cases h
      refine wf_between hf₁ ?_ hw₁ fun hu => ?_
      · dsimp only
        split <;> rfl
      · obtain ⟨command, hc, hn⟩ := hu
        simp [hn₁ command hc] at hn
  · cases h
    exact wf_inWord hf rfl rfl

theorem scan_wf (hwf : sc.Wf pre) (h : sc.scan sensitive pre.length ch = .ok sc') :
    Scan.Wf (pre ++ [ch]) sc' := by
  have hf := hwf.framed.later
  unfold scan at h
  split at h
  · rename_i hs
    split at h
    · cases h
      exact wf_executed hf rfl (hwf.live (by simp [hs, CmdParseState.executed]))
    · refine outer_wf_between hwf.framed.pop rfl rfl (fun hu => ?_) h
      obtain ⟨command, hc, hn⟩ := hu
      simp [hwf.framed.named command hc] at hn
  · rename_i hs
    cases h
    refine wf_executed hf ?_ (hwf.live (by simp [hs, CmdParseState.executed]))
    dsimp only
    split <;> rfl
  · rename_i hs
    cases h
    split
    · exact wf_inWord hf rfl rfl
    · exact wf_inWord hf (by simp [hs, CmdParseState.between]) (by simp [hs, CmdParseState.executed])
  · rename_i hs
    cases h
    split
    · exact wf_inWord hf rfl rfl
    split
    · exact wf_inWord hf rfl rfl
    · exact wf_inWord hf (by simp [hs, CmdParseState.between]) (by simp [hs, CmdParseState.executed])
  · cases h
    exact wf_inWord hf rfl rfl
  · cases h
    exact wf_inWord hf rfl rfl
  · by_cases hs : sc.state = .argument
    · exact outer_wf_argument hwf hs h
    · have hb : sc.state.between = true := by
        cases hstate : sc.state <;> simp_all [CmdParseState.between]
      exact outer_wf_between hf hb (hwf.word hb) (hwf.leading hb) h

end Scan

end GuiQml.Rpc
