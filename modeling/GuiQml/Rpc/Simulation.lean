import GuiQml.Rpc.Scanner

/-!
# The parser follows the scanner

Step by step, the parser's stack and depth counter are the scanner's open commands. The results of
the node change neither, so an executing parser can only leave the scanner's way by stopping.
-/

namespace GuiQml.Rpc

open Nesting

variable {UniValue Params : Type}

/-! ## The relation -/

def Parser.counter (p : Parser UniValue Params) : Counter :=
  ⟨p.nDepthInsideSensitive, p.filter_begin_pos⟩

/-- The part of the relation that does not look at the state. -/
structure Tracks (p : Parser UniValue Params) (commands : List Command) (closed : List Span) :
    Prop where
  stack : p.stack.map (fun args => !args.isEmpty) = commands.map (·.named)
  counter : p.counter = Counter.of (secrets commands)
  ranges : p.filter_ranges = closed

structure Sim (p : Parser UniValue Params) (sc : Scan) : Prop where
  state : p.state = sc.state
  tracks : Tracks p sc.commands sc.closed
  word : sc.state.executed = false → p.curarg = sc.word

/-- What the parser does where the scanner does the first. Only an executing parser stops on its own:
by a throw, or where `blank` says so. -/
inductive Follows (cfg : Settings UniValue Params) (blank : Prop) :
    Except ScanStop Scan → Except Stop (Parser UniValue Params) → Prop
  | sim {p sc} : Sim p sc → Follows cfg blank (.ok sc) (.ok p)
  | invalid {what} : Follows cfg blank (.error .invalidSyntax) (.error (.runtimeError what))
  | stray : Follows cfg blank (.error .strayWord) (.error .undefinedBehaviour)
  | threw {r what} : cfg.fExecute = true → Follows cfg blank r (.error (.runtimeError what))
  | unnamed {r} : cfg.fExecute = true → blank → Follows cfg blank r (.error .undefinedBehaviour)

section Steps

variable {cfg : Settings UniValue Params} {p : Parser UniValue Params} {sc sc' : Scan}
  {commands : List Command} {closed : List Span} {pos : Nat} {ch : Char} {blank : Prop}

theorem Tracks.frame {q : Parser UniValue Params} (h : Tracks p commands closed)
    (hs : q.stack = p.stack) (hc : q.counter = p.counter)
    (hr : q.filter_ranges = p.filter_ranges) : Tracks q commands closed :=
  ⟨hs ▸ h.stack, hc.trans h.counter, hr.trans h.ranges⟩

theorem Sim.setState (h : Sim p sc) (he : sc.state.executed = false) (state : CmdParseState) :
    Sim { p with state := state } { sc with state := state } :=
  ⟨rfl, h.tracks.frame rfl rfl rfl, fun _ => h.word he⟩

theorem Tracks.stack_nil_iff (h : Tracks p commands closed) : p.stack = [] ↔ commands = [] := by
  have := congrArg List.length h.stack
  simp only [List.length_map] at this
  rw [← List.length_eq_zero_iff, this, List.length_eq_zero_iff]

theorem Tracks.cons {command : Command} (h : Tracks p (command :: commands) closed) :
    ∃ args rest, p.stack = args :: rest ∧ (!args.isEmpty) = command.named ∧
      rest.map (fun args => !args.isEmpty) = commands.map (·.named) := by
  have hs := h.stack
  cases hp : p.stack with
  | nil => simp [hp] at hs
  | cons args rest =>
    simp only [hp, List.map_cons, List.cons.injEq] at hs
    exact ⟨args, rest, rfl, hs.1, hs.2⟩

/-! ## The two operations -/

variable (cfg pos) in
/-- A word that names a command: the filter looks at it only outside of sensitive commands. -/
theorem addToCurrentStack_name (h : Tracks p (⟨false, none⟩ :: commands) closed) (word : Str) :
    ∃ p', p.addToCurrentStack cfg pos word = .ok p' ∧
      Tracks p' (⟨true, if historyFilterContains cfg.api word then some pos else none⟩ :: commands)
        closed ∧ p'.state = p.state := by
  obtain ⟨args, rest, hstack, hargs, hrest⟩ := h.cons
  have hargs : args = [] := by simpa using hargs
  have hcount : p.counter = Counter.of (none :: secrets commands) := h.counter
  have hd : p.nDepthInsideSensitive = (Counter.of (none :: secrets commands)).depth :=
    congrArg Counter.depth hcount
  unfold Parser.addToCurrentStack
  simp only [hstack, hargs, List.isEmpty_nil, Bool.true_and]
  split
  · rename_i hfilter
    simp only [Bool.and_eq_true, decide_eq_true_eq, hd] at hfilter
    refine ⟨_, rfl, ⟨by simp [hrest], ?_, h.ranges⟩, rfl⟩
    simp [Parser.counter, hfilter.2, Counter.of_some, hfilter.1]
  · rename_i hfilter
    refine ⟨_, rfl, ⟨by simp [hrest], ?_, h.ranges⟩, rfl⟩
    simp only [Bool.and_eq_true, decide_eq_true_eq, hd, not_and, Bool.not_eq_true] at hfilter
    change p.counter = _
    cases hsens : historyFilterContains cfg.api word with
    | false => simpa using hcount
    | true =>
      have hne : (Counter.of (none :: secrets commands)).depth ≠ 0 := fun h0 => by
        simp [hfilter h0] at hsens
      simp [hcount, Counter.of_some, hne]

variable (cfg pos) in
theorem addToCurrentStack_argument {command : Command} (hn : command.named = true)
    (h : Tracks p (command :: commands) closed) (word : Str) :
    ∃ p', p.addToCurrentStack cfg pos word = .ok p' ∧
      Tracks p' (command :: commands) closed ∧ p'.state = p.state ∧ p'.curarg = p.curarg := by
  obtain ⟨args, rest, hstack, hargs, hrest⟩ := h.cons
  have hargs : args.isEmpty = false := by simpa [hn] using hargs
  refine ⟨{ p with stack := (args ++ [word]) :: rest }, ?_, ⟨?_, h.counter, h.ranges⟩, rfl, rfl⟩
  · simp [Parser.addToCurrentStack, hstack, hargs]
  · simp [hrest, hn]

variable (cfg pos) in
theorem addToCurrentStack_sim
    (hplain : ∀ command ∈ sc.commands, command.named = false → command.secret = none)
    (h : Tracks p sc.commands sc.closed) (hw : p.curarg = sc.word) :
    match sc.addWord (historyFilterContains cfg.api) pos with
    | none => p.stack = [] ∧ p.addToCurrentStack cfg pos p.curarg = .error .undefinedBehaviour
    | some sc' => ∃ p', p.addToCurrentStack cfg pos p.curarg = .ok p' ∧
        Tracks p' sc'.commands sc'.closed ∧ sc'.word = [] ∧ p.stack ≠ [] ∧
        ∃ command rest, sc'.commands = command :: rest ∧ command.named = true := by
  unfold Scan.addWord
  cases hc : sc.commands with
  | nil =>
    have hs : p.stack = [] := h.stack_nil_iff.mpr hc
    exact ⟨hs, by simp [Parser.addToCurrentStack, hs]⟩
  | cons command rest =>
    have hs : p.stack ≠ [] := by simp [h.stack_nil_iff, hc]
    rw [hc] at h
    dsimp only
    cases hn : command.named with
    | true =>
      obtain ⟨p', hadd, ht, -⟩ := addToCurrentStack_argument cfg pos hn h p.curarg
      exact ⟨p', hadd, by simpa [hn] using ht, rfl, hs, _, _, rfl, by simp [hn]⟩
    | false =>
      have hsecret := hplain command (by simp [hc]) hn
      have hcommand : command = ⟨false, none⟩ := by
        cases command
        simp_all
      rw [hcommand] at h
      obtain ⟨p', hadd, ht, -⟩ := addToCurrentStack_name cfg pos h p.curarg
      refine ⟨p', hadd, ?_, rfl, hs, _, _, rfl, rfl⟩
      rw [hw] at ht
      exact ht

theorem closeOutParams_sim {command : Command}
    (hf : Framed pos (command :: commands) closed) (h : Tracks p (command :: commands) closed) :
    ∃ p', p.closeOutParams pos = .ok p' ∧
      Tracks p' commands (closed ++ covered (secrets (command :: commands)) pos) ∧
      p'.state = p.state ∧ p'.curarg = p.curarg := by
  obtain ⟨args, rest, hstack, -, hrest⟩ := h.cons
  have hd : p.nDepthInsideSensitive = (Counter.of (secrets (command :: commands))).depth :=
    congrArg Counter.depth h.counter
  have hb : p.filter_begin_pos = (Counter.of (secrets (command :: commands))).start :=
    congrArg Counter.start h.counter
  have hpos : 0 < p.nDepthInsideSensitive → 0 < p.filter_begin_pos := by
    intro hpos
    rw [hd] at hpos
    rw [hb]
    unfold Counter.of at hpos ⊢
    split at hpos
    · rename_i hout
      exact (hf.secret _ (outermost_mem hout)).1
    · simp at hpos
  have hstack' : ∀ q : Parser UniValue Params, q.stack = p.stack →
      q.popBack = .ok { q with stack := rest } := fun q hq => by
    simp [Parser.popBack, hq, hstack]
  unfold Parser.closeOutParams
  rw [covered_eq, ← hd, ← hb]
  have hcount := Counter.of_tail command.secret (secrets commands)
  rw [← secrets_cons, ← hd, ← hb] at hcount
  split
  · rename_i h0
    refine ⟨_, hstack' p rfl, ⟨hrest, ?_, by simpa [h0] using h.ranges⟩, rfl, rfl⟩
    have hz := hb.trans (Counter.start_of_depth_zero (hd.symm.trans h0))
    simp [Parser.counter, hcount, h0, hz]
  split
  · rename_i h1
    rw [if_neg (by have := hpos (by omega); omega)]
    refine ⟨_, hstack' _ rfl, ⟨hrest, ?_, ?_⟩, rfl, rfl⟩
    · simp [Parser.counter, hcount, h1]
    · simp [h.ranges]
  · rename_i h0 h1
    refine ⟨_, hstack' _ rfl, ⟨hrest, ?_, by simpa [h1] using h.ranges⟩, rfl, rfl⟩
    rw [if_neg (by omega)] at hcount
    simp [Parser.counter, hcount]

/-! ## One round -/

variable (cfg pos) in
theorem finishCommand_sim (hwf : Framed pos sc.commands sc.closed) (hlive : sc.commands ≠ [])
    (h : Tracks p sc.commands sc.closed) :
    ∃ p', p.finishCommand cfg pos = .ok p' ∧ Sim p' (sc.endCommand pos) := by
  obtain ⟨command, rest, hc⟩ := List.exists_cons_of_ne_nil hlive
  rw [hc] at h hwf
  obtain ⟨p₁, hclose, ht, -, -⟩ := closeOutParams_sim hwf h
  have hend : (sc.endCommand pos).commands = rest := by simp [Scan.endCommand, hc]
  have hclosed : (sc.endCommand pos).closed =
      sc.closed ++ covered (secrets (command :: rest)) pos := by simp [Scan.endCommand, hc]
  have hsim : ∀ q : Parser UniValue Params, Tracks q (sc.endCommand pos).commands
      (sc.endCommand pos).closed → q.state = .eatingSpaces → q.curarg = [] →
      Sim q (sc.endCommand pos) := fun q hq hs hw => ⟨hs, hq, fun _ => hw⟩
  rw [← hclosed, ← hend] at ht
  have ht₁ : Tracks { p₁ with curarg := [], state := .eatingSpaces } (sc.endCommand pos).commands
      (sc.endCommand pos).closed := ⟨ht.stack, ht.counter, ht.ranges⟩
  unfold Parser.finishCommand
  rw [hclose]
  dsimp only
  split
  · exact ⟨_, rfl, hsim _ ht₁ rfl rfl⟩
  split
  · exact ⟨_, rfl, hsim _ ⟨ht.stack, ht.counter, ht.ranges⟩ rfl rfl⟩
  · rename_i hstack
    cases hrest : rest with
    | nil =>
      rw [hend, hrest] at ht
      simp [ht.stack_nil_iff] at hstack
    | cons outer rest' =>
      have hn : outer.named = true := hwf.named outer (by simp [hrest])
      rw [hend, hrest] at ht₁
      obtain ⟨p', hadd, ht', hst, hw⟩ := addToCurrentStack_argument cfg pos hn
        ht₁ (resultText cfg.api p₁.lastResult)
      refine ⟨p', hadd, hsim p' ?_ hst hw⟩
      rw [hend, hrest]
      exact ht'

variable (cfg) in
theorem executeCommand_sim {command : Command} {rest : List Command}
    (hc : sc.commands = command :: rest) (h : Tracks p sc.commands sc.closed) :
    Follows cfg (command.named = false) (.ok { sc with state := .commandExecuted, word := [] })
      (p.executeCommand cfg) := by
  unfold Parser.executeCommand
  split
  · exact .sim ⟨rfl, ⟨h.stack, h.counter, h.ranges⟩, fun hs => nomatch hs⟩
  rename_i hexec
  have hexec : cfg.fExecute = true := by simpa using hexec
  split
  · split
    · exact .threw hexec
    · exact .sim ⟨rfl, ⟨h.stack, h.counter, h.ranges⟩, fun hs => nomatch hs⟩
  · rename_i hstack
    rw [hc] at h
    obtain ⟨args, rest', hp, hargs, -⟩ := h.cons
    refine .unnamed hexec ?_
    cases args with
    | nil => simpa using hargs.symm
    | cons method strParams => exact absurd hp (hstack method strParams rest')

/-- A command without a name ends. -/
def Scan.Blank (sc : Scan) (ch : Char) : Prop :=
  sc.state.between = true ∧ (ch = ')' ∨ ch = '\n') ∧
    ∃ command ∈ sc.commands, command.named = false

theorem Follows.mono {blank' : Prop} {r : Except ScanStop Scan}
    {out : Except Stop (Parser UniValue Params)} (hb : blank → blank')
    (h : Follows cfg blank r out) : Follows cfg blank' r out := by
  cases h with
  | sim h => exact .sim h
  | invalid => exact .invalid
  | stray => exact .stray
  | threw h => exact .threw h
  | unnamed h hblank => exact .unnamed h (hb hblank)

theorem execute_sim (h : Sim p sc)
    (hch : ch = '(' ∨ ch = ')' ∨ ch = '\n') :
    Follows cfg (∃ command rest, sc.commands = command :: rest ∧ command.named = false ∧
        (ch = ')' ∨ ch = '\n'))
      (.ok (sc.execute ch))
      (if (ch = ')' || ch = '\n') && !p.stack.isEmpty then p.executeCommand cfg else .ok p) := by
  unfold Scan.execute
  cases hc : sc.commands with
  | nil =>
    have hp : p.stack = [] := h.tracks.stack_nil_iff.mpr hc
    simp only [hp, List.isEmpty_nil, Bool.or_true, if_true, Bool.not_true, Bool.and_false]
    exact .sim h
  | cons command rest =>
    have hp : p.stack.isEmpty = false := by
      cases hs : p.stack with
      | nil => simp [h.tracks.stack_nil_iff.mp hs] at hc
      | cons => rfl
    by_cases hopen : ch = '('
    · subst hopen
      simpa using .sim h
    · have hclose : ch = ')' ∨ ch = '\n' := hch.resolve_left hopen
      have hcond : (decide (ch = ')') || decide (ch = '\n')) = true := by simpa using hclose
      simp only [hcond, hp, hopen, decide_false, List.isEmpty_cons, Bool.or_false, Bool.not_false,
        Bool.and_true, if_true, Bool.false_eq_true, if_false]
      have hexec := executeCommand_sim cfg hc h.tracks
      rw [hc] at hexec
      exact hexec.mono fun hn => ⟨command, rest, rfl, hn, hclose⟩

theorem enter_sim (h : Tracks p sc.commands sc.closed) :
    (ch = '(' && !p.stack.isEmpty && !(p.stack.headD []).isEmpty) =
      (ch = '(' && sc.commands.head?.any (·.named)) := by
  rw [Bool.and_assoc]
  congr 1
  cases hc : sc.commands with
  | nil => simp [h.stack_nil_iff.mpr hc]
  | cons command rest =>
    rw [hc] at h
    obtain ⟨args, rest', hp, hargs, -⟩ := h.cons
    simp [hp, hargs]

theorem push_sim (h : Tracks p commands closed) :
    Tracks { p with
      nDepthInsideSensitive :=
        if p.nDepthInsideSensitive = 0 then 0 else p.nDepthInsideSensitive + 1
      stack := [] :: p.stack } (⟨false, none⟩ :: commands) closed := by
  have hd : p.nDepthInsideSensitive = (Counter.of (secrets commands)).depth :=
    congrArg Counter.depth h.counter
  have hb : p.filter_begin_pos = (Counter.of (secrets commands)).start :=
    congrArg Counter.start h.counter
  refine ⟨by simp [h.stack], ?_, h.ranges⟩
  simp only [secrets_cons, Counter.of_none, ← hd, ← hb]
  split
  · rename_i h0
    have hz := hb.trans (Counter.start_of_depth_zero (hd.symm.trans h0))
    simp [Parser.counter, hz]
  · simp [Parser.counter]

/-- The end of an argument, in the command that is innermost by then. -/
def Parser.endArgument (cfg : Settings UniValue Params) (p : Parser UniValue Params) (pos : Nat) :
    Except Stop (Parser UniValue Params) :=
  if p.stack.isEmpty then .error (.runtimeError "Invalid Syntax")
  else match p.addToCurrentStack cfg pos p.curarg with
  | .error e => .error e
  | .ok p => .ok { p with curarg := [], state := .eatingSpacesInBrackets }

variable (cfg pos ch) in
theorem finishArgument_sim
    (hplain : ∀ command ∈ sc.commands, command.named = false → command.secret = none)
    (hst : sc.state = .argument) (h : Sim p sc) :
    match (sc.enter ch).addWord (historyFilterContains cfg.api) pos with
    | none => p.finishArgument cfg pos ch = .error (.runtimeError "Invalid Syntax")
    | some sc' => ∃ p', p.finishArgument cfg pos ch = .ok p' ∧
        Sim p' { sc' with state := .eatingSpacesInBrackets } ∧
        ∃ command rest, sc'.commands = command :: rest ∧ command.named = true := by
  have hw : p.curarg = sc.word := h.word (by rw [hst]; rfl)
  -- the parser and the scanner after a nested command was opened, if one is
  obtain ⟨q, hq, hqw, hqt, hplain'⟩ : ∃ q, p.finishArgument cfg pos ch = q.endArgument cfg pos ∧
      q.curarg = (sc.enter ch).word ∧ Tracks q (sc.enter ch).commands (sc.enter ch).closed ∧
      ∀ command ∈ (sc.enter ch).commands, command.named = false → command.secret = none := by
    refine ⟨_, rfl, ?_⟩
    unfold Scan.enter
    rw [enter_sim h.tracks]
    split
    · exact ⟨hw, push_sim h.tracks, by simpa using hplain⟩
    · exact ⟨hw, h.tracks, hplain⟩
  rw [hq]
  unfold Parser.endArgument
  have hadd := addToCurrentStack_sim cfg pos hplain' hqt hqw
  split
  · rename_i hnone
    rw [hnone] at hadd
    simp [hadd.1]
  · rename_i sc' hsome
    rw [hsome] at hadd
    obtain ⟨p', hp, ht, hword, hne, hhead⟩ := hadd
    refine ⟨{ p' with curarg := [], state := .eatingSpacesInBrackets }, ?_,
      ⟨rfl, ht.frame rfl rfl rfl, fun _ => hword.symm⟩, hhead⟩
    simp [hp, hne]

theorem blankChar_sim
    (hplain : ∀ command ∈ sc.commands, command.named = false → command.secret = none)
    (hst : sc.state.between = true ∨ sc.state = .argument)
    (hword : sc.state.between = true → sc.word = []) (h : Sim p sc) :
    Follows cfg blank (sc.blank (historyFilterContains cfg.api) pos ch)
      (p.blankChar cfg pos ch) := by
  unfold Scan.blank Parser.blankChar
  rw [h.state]
  cases hs : sc.state with
  | argument =>
    have hw : p.curarg = sc.word := h.word (by rw [hs]; rfl)
    have hadd := addToCurrentStack_sim cfg pos hplain h.tracks hw
    simp only [reduceCtorEq, decide_false, Bool.false_and, Bool.false_eq_true, if_false, if_true]
    split
    · rename_i hnone
      rw [hnone] at hadd
      rw [hadd.2]
      exact .stray
    · rename_i sc' hsome
      rw [hsome] at hadd
      obtain ⟨p', hp, ht, hword, -, -⟩ := hadd
      rw [hp]
      refine .sim ⟨rfl, ⟨ht.stack, ht.counter, ht.ranges⟩, fun _ => hword.symm⟩
  | eatingSpacesInArg =>
    have hw : p.curarg = [] :=
      (h.word (by rw [hs]; rfl)).trans (hword (by rw [hs]; rfl))
    have hsim := h.setState (by rw [hs]; rfl) .eatingSpaces
    by_cases hcomma : ch = ','
    · simpa [hw, hcomma] using .invalid
    · simpa [hcomma] using .sim hsim
  | eatingSpacesInBrackets =>
    have hsim := h.setState (by rw [hs]; rfl)
    by_cases hcomma : ch = ','
    · simpa [hcomma] using .sim (hsim .eatingSpacesInArg)
    · simpa [hcomma] using .sim (hsim .eatingSpaces)
  | eatingSpaces => simpa using .sim (h.setState (by rw [hs]; rfl) .eatingSpaces)
  | _ => simp [hs, CmdParseState.between] at hst

theorem bracketChar_sim
    (hplain : ∀ command ∈ sc.commands, command.named = false → command.secret = none)
    (hst : sc.state.between = true ∨ sc.state = .argument) (h : Sim p sc)
    (hch : ch = '(' ∨ ch = ')' ∨ ch = '\n') :
    Follows cfg (sc.Blank ch) (sc.bracket (historyFilterContains cfg.api) pos ch)
      (p.bracketChar cfg pos ch) := by
  unfold Scan.bracket Parser.bracketChar
  rw [h.state]
  by_cases hs : sc.state = .argument
  · simp only [hs, reduceCtorEq, if_false, if_true]
    have hfin := finishArgument_sim cfg pos ch hplain hs h
    split
    · rename_i hnone
      rw [hnone] at hfin
      rw [hfin]
      exact .invalid
    · rename_i sc' hsome
      rw [hsome] at hfin
      obtain ⟨p', hp, hsim, command, rest, hc, hn⟩ := hfin
      rw [hp]
      -- the innermost command has its name now
      refine (execute_sim hsim hch).mono fun ⟨command', rest', hc', hn', _⟩ => ?_
      cases hc.symm.trans hc'
      simp [hn] at hn'
  · have hb : sc.state.between = true := hst.resolve_right hs
    simp only [hs, if_false]
    split
    · rename_i hs'
      simp only [hs', if_true]
      exact .invalid
    · rename_i hs'
      exact absurd hs' hs
    · rename_i hinArg _
      rw [if_neg (show ¬ sc.state = .eatingSpacesInArg from hinArg)]
      exact (execute_sim h hch).mono fun ⟨command, rest, hc, hn, hend⟩ =>
        ⟨hb, hend, command, by simp [hc], hn⟩

theorem outerChar_sim
    (hplain : ∀ command ∈ sc.commands, command.named = false → command.secret = none)
    (hst : sc.state.between = true ∨ sc.state = .argument)
    (hword : sc.state.between = true → sc.word = []) (h : Sim p sc) :
    Follows cfg (sc.Blank ch) (sc.outer (historyFilterContains cfg.api) pos ch)
      (p.outerChar cfg pos ch) := by
  have he : sc.state.executed = false := by
    rcases hst with hst | hst
    · exact CmdParseState.not_executed_of_between hst
    · rw [hst]
      rfl
  unfold Scan.outer Parser.outerChar
  split
  · exact .sim (h.setState he .doubleQuoted)
  split
  · exact .sim (h.setState he .singleQuoted)
  split
  · exact .sim (h.setState he .escapeOuter)
  split
  · exact bracketChar_sim hplain hst h (by assumption)
  split
  · exact blankChar_sim hplain hst hword h
  · exact .sim ⟨rfl, h.tracks.frame rfl rfl rfl, fun _ => by simp [h.word he]⟩

/-- A character of a result query. Only an executing parser looks at the result. -/
theorem queryChar_sim (hs : sc.state = .commandExecutedInner) (h : Sim p sc) :
    Follows cfg blank
      (.ok { sc with state := if ch = ']' then .commandExecuted else .commandExecutedInner })
      (p.queryChar cfg ch) := by
  unfold Parser.queryChar
  by_cases hclose : ch = ']'
  · simp only [hclose, ne_eq, not_true_eq_false, if_false, if_true]
    split
    · rename_i hexec
      have hexec : cfg.fExecute = true := by simp_all
      unfold Parser.queryResult
      split
      · rename_i e hquery
        split at hquery
        · split at hquery <;> cases hquery
          exact .threw hexec
        split at hquery <;> cases hquery
        exact .threw hexec
      · exact .sim ⟨rfl, h.tracks.frame rfl rfl rfl, fun hx => nomatch hx⟩
    · exact .sim ⟨rfl, h.tracks.frame rfl rfl rfl, fun hx => nomatch hx⟩
  · simp only [hclose, ne_eq, not_false_eq_true, if_true, if_false]
    exact .sim ⟨h.state.trans hs, h.tracks.frame rfl rfl rfl, fun hx => nomatch hx⟩

variable (cfg ch) in
theorem feed_sim {pre : Str} (hwf : sc.Wf pre) (h : Sim p sc) :
    Follows cfg (sc.Blank ch) (sc.scan (historyFilterContains cfg.api) pre.length ch)
      (p.feed cfg pre.length ch) := by
  unfold Scan.scan Parser.feed
  rw [h.state]
  cases hs : sc.state with
  | commandExecuted =>
    by_cases hquery : ch = '['
    · simpa [hquery] using .sim ⟨rfl, h.tracks.frame rfl rfl rfl, fun hx => nomatch hx⟩
    · simp only [hquery, if_false, reduceCtorEq]
      obtain ⟨p', hp, hsim⟩ := finishCommand_sim cfg pre.length hwf.framed
        (hwf.live (by rw [hs]; rfl)) h.tracks
      rw [hp]
      refine (outerChar_sim (fun c hc => ?_) (.inl rfl) (fun _ => rfl) hsim).mono ?_
      · exact hwf.framed.plain c (List.mem_of_mem_tail hc)
      · rintro ⟨-, -, c, hc, hn⟩
        simp [hwf.framed.named c hc] at hn
  | commandExecutedInner =>
    simp only [if_true]
    by_cases hopen : ch = '['
    · subst hopen
      exact .sim ⟨rfl, h.tracks.frame rfl rfl rfl, fun hx => nomatch hx⟩
    rw [if_neg hopen]
    exact queryChar_sim hs h
  | argument =>
    refine outerChar_sim hwf.framed.plain (.inr hs) (fun hb => ?_) h
    simp [hs, CmdParseState.between] at hb
  | eatingSpaces | eatingSpacesInArg | eatingSpacesInBrackets =>
    exact outerChar_sim hwf.framed.plain (.inl (by rw [hs]; rfl)) hwf.word h
  | singleQuoted =>
    have hw := h.word (by rw [hs]; rfl)
    dsimp only
    split
    · exact .sim ⟨rfl, h.tracks.frame rfl rfl rfl, fun _ => hw⟩
    · exact .sim ⟨rfl, h.tracks.frame rfl rfl rfl, fun _ => by simp [hw]⟩
  | doubleQuoted =>
    have hw := h.word (by rw [hs]; rfl)
    dsimp only
    split
    · exact .sim ⟨rfl, h.tracks.frame rfl rfl rfl, fun _ => hw⟩
    split
    · exact .sim ⟨rfl, h.tracks.frame rfl rfl rfl, fun _ => hw⟩
    · exact .sim ⟨rfl, h.tracks.frame rfl rfl rfl, fun _ => by simp [hw]⟩
  | escapeOuter =>
    have hw := h.word (by rw [hs]; rfl)
    exact .sim ⟨rfl, h.tracks.frame rfl rfl rfl, fun _ => by simp [hw]⟩
  | escapeDoubleQuoted =>
    have hw := h.word (by rw [hs]; rfl)
    refine .sim ⟨rfl, h.tracks.frame rfl rfl rfl, fun _ => ?_⟩
    by_cases hquote : ch = '"' <;> by_cases hslash : ch = '\\' <;> simp [hquote, hslash, hw]

/-! ## The whole loop -/

/-- A command without a name ends after `pre`: nothing but leading characters stand before. -/
def UnnamedEnd (line : Str) : Prop :=
  ∃ pre ch post, line = pre ++ ch :: post ∧ (∀ c ∈ pre, Leading c) ∧ (ch = ')' ∨ ch = '\n')

theorem scanAll_wf {sensitive : Str → Bool} {pre line : Str} (hwf : sc.Wf pre)
    (h : Scan.scanAll sensitive sc pre.length line = .ok sc') : sc'.Wf (pre ++ line) := by
  induction line generalizing pre sc with
  | nil =>
    cases h
    simpa using hwf
  | cons ch rest ih =>
    unfold Scan.scanAll at h
    split at h
    · cases h
    · rename_i sc₁ hstep
      have hnext : sc₁.Wf (pre ++ [ch]) := Scan.scan_wf hwf hstep
      simpa using ih hnext (by simpa using h)

/-- The run lemma: by induction on the rest of the line, with the invariant of what was read. -/
theorem feedAll_sim {pre line : Str} (hwf : sc.Wf pre) (h : Sim p sc) :
    Follows cfg (UnnamedEnd (pre ++ line))
      (Scan.scanAll (historyFilterContains cfg.api) sc pre.length line)
      (p.feedAll cfg pre.length line) := by
  induction line generalizing pre sc p with
  | nil => exact .sim h
  | cons ch rest ih =>
    have hstep := feed_sim cfg ch hwf h
    unfold Scan.scanAll Parser.feedAll
    generalize hr : sc.scan (historyFilterContains cfg.api) pre.length ch = r at hstep ⊢
    generalize p.feed cfg pre.length ch = out at hstep ⊢
    cases hstep with
    | sim hsim =>
      have hnext : Scan.Wf (pre ++ [ch]) _ := Scan.scan_wf hwf hr
      simpa using ih hnext hsim
    | invalid => exact .invalid
    | stray => exact .stray
    | threw hexec => exact .threw hexec
    | unnamed hexec hblank =>
      obtain ⟨hb, hend, hu⟩ := hblank
      exact .unnamed hexec ⟨pre, ch, rest, rfl, (hwf.leading hb hu).2, hend⟩

variable (cfg) in
theorem line_sim (line : Str) :
    Follows cfg (UnnamedEnd line) (Scan.scanAll (historyFilterContains cfg.api) {} 0 line)
      (Parser.feedAll cfg { lastResult := cfg.api.null } 0 line) := by
  have hstart : Sim ({ lastResult := cfg.api.null } : Parser UniValue Params) {} :=
    ⟨rfl, ⟨rfl, rfl, rfl⟩, fun _ => rfl⟩
  exact feedAll_sim Scan.wf_start hstart

end Steps

end GuiQml.Rpc
